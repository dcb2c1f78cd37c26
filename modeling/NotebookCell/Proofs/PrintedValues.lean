import NotebookCell.Json.Document

/-!
# Printed values

Reading a printed value gives the value back: each character of a string is found again behind its
escape, and the blanks of the layout are passed over.
-/

namespace NotebookCell.Json

open Reader

/-! ## Readers that succeed -/

/-- The reader takes what stands before `rest`, wherever the text begins. -/
def Reader.Yields {α : Type} (r : Reader α) (text : List Char) (a : α) (rest : List Char) : Prop :=
  ∀ offset, ∃ offset', r ⟨text, offset⟩ = .ok a ⟨rest, offset'⟩

namespace Reader

section
variable {α β : Type} {text mid rest : List Char} {a : α} {b : β}

theorem yields_pure (a : α) (text : List Char) : Yields (pure a) text a text :=
  fun offset => ⟨offset, rfl⟩

theorem yields_bind {r : Reader α} {f : α → Reader β} (hr : Yields r text a mid)
    (hf : Yields (f a) mid b rest) : Yields (r >>= f) text b rest := by
  intro offset
  obtain ⟨o, hr⟩ := hr offset
  obtain ⟨o', hf⟩ := hf o
  refine ⟨o', ?_⟩
  show EStateM.bind r f _ = _
  unfold EStateM.bind
  rw [hr]
  exact hf

theorem yields_get {f : Cursor → Reader β} (h : ∀ offset, Yields (f ⟨text, offset⟩) text b rest) :
    Yields (get >>= f) text b rest := fun offset => h offset offset

theorem yields_peek (text : List Char) : Yields peek text text.head? text :=
  fun offset => ⟨offset, rfl⟩

theorem yields_eat (c : Char) (text : List Char) : Yields eat (c :: text) () text := fun _ => ⟨_, rfl⟩

theorem yields_skipBlanks (text : List Char) : Yields skipBlanks text () (text.dropWhile isBlank) :=
  fun _ => ⟨_, rfl⟩

theorem yields_peekToken (text : List Char) :
    Yields peekToken text (text.dropWhile isBlank).head? (text.dropWhile isBlank) :=
  yields_bind (yields_skipBlanks text) (yields_peek _)

end

/-! ## Strings -/

theorem hexDigit?_hexDigit : ∀ n < 16, hexDigit? (hexDigit n) = some n := by decide

theorem utf8Size_hexDigit : ∀ n < 16, (hexDigit n).utf8Size = 1 := by decide

theorem yields_hexEscape {a b : Nat} (ha : a < 16) (hb : b < 16) (text : List Char) :
    Yields hexEscape ('0' :: '0' :: hexDigit a :: hexDigit b :: text) (a * 16 + b) text := by
  intro offset
  have hs : ¬byteLength ('0' :: '0' :: hexDigit a :: hexDigit b :: text) < 4 := by
    have h0 : ('0' : Char).utf8Size = 1 := rfl
    simp only [byteLength_cons, utf8Size_hexDigit a ha, utf8Size_hexDigit b hb]
    omega
  have hd : ['0', '0', hexDigit a, hexDigit b].mapM hexDigit? = some [0, 0, a, b] := by
    simp [hexDigit?_hexDigit a ha, hexDigit?_hexDigit b hb, show hexDigit? '0' = some 0 from rfl]
  refine ⟨offset + 4, ?_⟩
  have he : a * 16 + b = ((0 * 16 + 0) * 16 + a) * 16 + b := by omega
  rw [he]
  unfold hexEscape
  show (if byteLength ('0' :: '0' :: hexDigit a :: hexDigit b :: text) < 4 then _ else _ : Reader Nat)
    _ = _
  rw [if_neg hs]
  simp only [List.take, hd]
  rfl

/-- The escape of a control character that has no short one. -/
theorem yields_unicodeEscape {n : Nat} (h : n < 0x20) (text : List Char) :
    Yields unicodeEscape ('0' :: '0' :: hexDigit (n / 16) :: hexDigit (n % 16) :: text)
      (Char.ofNat n) text := by
  have hn : n / 16 * 16 + n % 16 = n := by omega
  have hx := @yields_hexEscape (n / 16) (n % 16) (by omega) (by omega) text
  rw [hn] at hx
  unfold unicodeEscape
  refine yields_bind hx ?_
  have h1 : (decide (0xdc00 ≤ n) && decide (n ≤ 0xdfff)) = false := by simp; omega
  have h2 : (decide (n < 0xd800) || decide (0xdbff < n)) = true := by simp; omega
  simp only [h1, h2, if_true, Bool.false_eq_true, if_false]
  exact yields_pure _ _

theorem yields_escape_simple {α : Type} {unicode : Reader α} {simple : Char → α} {c d : Char}
    (hc : c ≠ 'u') (h : simpleEscape? c = some d) (text : List Char) :
    Yields (escape unicode simple) (c :: text) (simple d) text := by
  unfold escape
  refine yields_bind (yields_peek _) ?_
  split
  · next e => cases e
  · next e =>
    obtain rfl : c = 'u' := by simpa using e
    exact absurd rfl hc
  · next e =>
    obtain rfl : c = _ := by simpa using e
    rw [h]
    exact yields_bind (yields_eat _ _) (yields_pure _ _)

theorem yields_escape_unicode {α : Type} {unicode : Reader α} {simple : Char → α} {a : α}
    {text rest : List Char} (h : Yields unicode text a rest) :
    Yields (escape unicode simple) ('u' :: text) a rest := by
  unfold escape
  exact yields_bind (yields_peek _) (yields_bind (yields_eat _ _) h)

section
variable {fuel : Nat} {found text rest : List Char} {s : String}

theorem yields_readTextFrom_escape {c : Char} (escaped : List Char)
    (he : Yields (escape unicodeEscape id) (escaped ++ text) c text)
    (h : Yields (readTextFrom fuel (c :: found)) text s rest) :
    Yields (readTextFrom (fuel + 1) found) ('\\' :: (escaped ++ text)) s rest := by
  unfold readTextFrom
  refine yields_bind (yields_peek _) ?_
  exact yields_bind (yields_eat _ _) (yields_bind he h)

theorem yields_readTextFrom_plain {c : Char} (hq : c ≠ '\x22') (hb : c ≠ '\\') (hc : ¬c < ' ')
    (h : Yields (readTextFrom fuel (c :: found)) text s rest) :
    Yields (readTextFrom (fuel + 1) found) (c :: text) s rest := by
  unfold readTextFrom
  refine yields_bind (yields_peek _) ?_
  split
  · next e => cases e
  · next e => exact absurd (by simpa using e) hq
  · next e => exact absurd (by simpa using e) hb
  · next e =>
    obtain rfl : c = _ := by simpa using e
    simp only [if_neg hc]
    exact yields_bind (yields_eat _ _) h

/-- One character is read back from its escape. -/
theorem yields_readTextFrom_cons (c : Char)
    (h : Yields (readTextFrom fuel (c :: found)) text s rest) :
    Yields (readTextFrom (fuel + 1) found) (escapeChar c ++ text) s rest := by
  have simple : ∀ d, d ≠ 'u' → simpleEscape? d = some c →
      Yields (readTextFrom (fuel + 1) found) ('\\' :: ([d] ++ text)) s rest := fun d hd hs =>
    yields_readTextFrom_escape [d] (yields_escape_simple hd hs text) h
  unfold escapeChar
  split
  · exact simple '\x22' (by decide) rfl
  · exact simple '\\' (by decide) rfl
  · exact simple 'b' (by decide) rfl
  · exact simple 'f' (by decide) rfl
  · exact simple 'n' (by decide) rfl
  · exact simple 'r' (by decide) rfl
  · exact simple 't' (by decide) rfl
  · next hq hb _ _ _ _ _ =>
    split
    · next hc =>
      have hu := yields_unicodeEscape hc text
      rw [Char.ofNat_toNat] at hu
      exact yields_readTextFrom_escape ['u', '0', '0', _, _] (yields_escape_unicode hu) h
    · next hc =>
      have hc : ¬c < ' ' := by
        intro hl
        exact hc (Char.lt_def.mp hl)
      exact yields_readTextFrom_plain hq hb hc h

end

theorem yields_readTextFrom : ∀ (cs : List Char) (fuel : Nat) (found rest : List Char),
    cs.length < fuel →
    Yields (readTextFrom fuel found) (cs.flatMap escapeChar ++ '\x22' :: rest)
      (String.ofList (found.reverse ++ cs)) rest
  | _, 0, _, _, h => absurd h (by omega)
  | [], fuel + 1, found, rest, _ => by
    rw [List.append_nil]
    unfold readTextFrom
    exact yields_bind (yields_peek _) (yields_bind (yields_eat _ _) (yields_pure _ _))
  | c :: cs, fuel + 1, found, rest, h => by
    have ih := yields_readTextFrom cs fuel (c :: found) rest (by simpa using h)
    rw [List.reverse_cons, List.append_assoc] at ih
    rw [List.flatMap_cons, List.append_assoc]
    exact yields_readTextFrom_cons c ih

theorem length_le_flatMap_escapeChar (cs : List Char) :
    cs.length ≤ (cs.flatMap escapeChar).length := by
  induction cs with
  | nil => simp
  | cons c cs ih =>
    have hc : 1 ≤ (escapeChar c).length := by
      unfold escapeChar
      split <;> try split
      all_goals simp
    rw [List.flatMap_cons, List.length_append, List.length_cons]
    omega

/-- A printed string is read back behind its opening quote. -/
theorem yields_readText (s : String) (rest : List Char) :
    Yields readText (s.toList.flatMap escapeChar ++ '\x22' :: rest) s rest := by
  unfold readText
  apply yields_get
  intro offset
  have h := yields_readTextFrom s.toList
    ((s.toList.flatMap escapeChar ++ '\x22' :: rest).length + 1) [] rest (by
      have := length_le_flatMap_escapeChar s.toList
      rw [List.length_append]
      omega)
  simpa using h

/-! ## Tokens behind blanks -/

theorem dropWhile_newLine (level : Nat) (text : List Char) :
    (newLine level ++ text).dropWhile isBlank = text.dropWhile isBlank := by
  have hr : ∀ n, (List.replicate n ' ' ++ text).dropWhile isBlank = text.dropWhile isBlank := by
    intro n
    induction n with
    | zero => rfl
    | succ n ih => exact ih
  exact hr (2 * level)

section
variable {text rest : List Char} {c : Char}

theorem yields_token (h : text.dropWhile isBlank = c :: rest) :
    Yields peekToken text (some c) (c :: rest) := by
  have hp := yields_peekToken text
  rw [h] at hp
  exact hp

theorem yields_endList (h : text.dropWhile isBlank = ']' :: rest) : Yields endList text () rest := by
  unfold endList
  exact yields_bind (yields_token h) (yields_eat _ _)

theorem yields_endObject (h : text.dropWhile isBlank = '\x7d' :: rest) :
    Yields endObject text () rest := by
  unfold endObject
  exact yields_bind (yields_token h) (yields_eat _ _)

theorem yields_expectColon (rest : List Char) : Yields expectColon (':' :: rest) () rest := by
  unfold expectColon
  exact yields_bind (yields_token rfl) (yields_eat _ _)

/-- What stands before a value that is not the first one. -/
def separator (first : Bool) : List Char := if first then [] else [',']

theorem yields_hasNextItem_end {first : Bool} (h : text.dropWhile isBlank = ']' :: rest) :
    Yields (hasNextItem first) text false (']' :: rest) := by
  unfold hasNextItem
  exact yields_bind (yields_token h) (yields_pure _ _)

theorem yields_hasNextItem {first : Bool} (h : text.dropWhile isBlank = c :: rest) (hc : c ≠ ']') :
    Yields (hasNextItem first) (separator first ++ text) true (c :: rest) := by
  unfold hasNextItem
  cases first with
  | true =>
    refine yields_bind (yields_token h) ?_
    split
    · next e => cases e
    · next e => exact absurd (by simpa using e) hc
    · exact yields_pure _ _
  | false =>
    refine yields_bind (yields_token rfl) ?_
    refine yields_bind (yields_eat _ _) (yields_bind (yields_token h) ?_)
    split
    · next e => exact absurd (by simpa using e) hc
    · exact yields_pure _ _
    · next e => cases e

theorem yields_nextKey?_end {first : Bool} (h : text.dropWhile isBlank = '\x7d' :: rest) :
    Yields (nextKey? first) text none ('\x7d' :: rest) := by
  unfold nextKey?
  exact yields_bind (yields_token h) (yields_pure _ _)

theorem yields_nextKey? {first : Bool} {key : String}
    (h : text.dropWhile isBlank = printText key ++ rest) :
    Yields (nextKey? first) (separator first ++ text) (some key) rest := by
  have ht : text.dropWhile isBlank = '\x22' :: (key.toList.flatMap escapeChar ++ '\x22' :: rest) := by
    rw [h]
    simp [printText]
  have hs : ∀ text, Yields (do eat; return some (← readText))
      ('\x22' :: (key.toList.flatMap escapeChar ++ '\x22' :: text)) (some key) text := fun text =>
    yields_bind (yields_eat _ _) (yields_bind (yields_readText key text) (yields_pure _ _))
  unfold nextKey?
  cases first with
  | true =>
    refine yields_bind (yields_token ht) ?_
    exact yields_bind (yields_token rfl) (hs rest)
  | false =>
    refine yields_bind (yields_token rfl) ?_
    exact yields_bind (yields_eat _ _) (yields_bind (yields_token ht) (hs rest))

end

/-! ## Values -/

/-- The items that are left, and the comma before them. -/
def nextItems (first : Bool) (level : Nat) : List Value → List Char
  | [] => []
  | items => separator first ++ printItems level items

def nextFields (first : Bool) (level : Nat) : List (String × Value) → List Char
  | [] => []
  | fields => separator first ++ printFields level fields

theorem nextItems_cons (first : Bool) (level : Nat) (item : Value) (items : List Value) :
    nextItems first level (item :: items) =
      separator first ++ (newLine level ++ (item.print level ++ nextItems false level items)) := by
  cases items <;> simp [nextItems, printItems, separator]

theorem nextFields_cons (first : Bool) (level : Nat) (key : String) (value : Value)
    (fields : List (String × Value)) :
    nextFields first level ((key, value) :: fields) =
      separator first ++ (newLine level ++ (printText key ++
        (':' :: ' ' :: (value.print level ++ nextFields false level fields)))) := by
  cases fields <;> simp [nextFields, printFields, separator]

theorem print_eq_cons (v : Value) (level : Nat) :
    ∃ c text, v.print level = c :: text ∧ isBlank c = false ∧ c ≠ ']' := by
  cases v with
  | text s => exact ⟨_, _, rfl, rfl, by decide⟩
  | list items => cases items <;> exact ⟨_, _, rfl, rfl, by decide⟩
  | object fields => cases fields <;> exact ⟨_, _, rfl, rfl, by decide⟩

theorem dropWhile_print (v : Value) (level : Nat) (text : List Char) :
    (v.print level ++ text).dropWhile isBlank = v.print level ++ text := by
  obtain ⟨c, tail, hv, hc, -⟩ := print_eq_cons v level
  rw [hv, List.cons_append, List.dropWhile_cons_of_neg (by simp [hc])]

-- The fuel is never less than what is left to print, in which each value has a character at least.
mutual

theorem yields_readValue : ∀ (v : Value) (level fuel : Nat) (text rest : List Char),
    (v.print level).length ≤ fuel → text.dropWhile isBlank = v.print level ++ rest →
    Yields (readValue fuel) text v rest
  | v, level, 0, _, _, h, _ => by
    obtain ⟨c, tail, hv, -⟩ := print_eq_cons v level
    rw [hv] at h
    exact absurd h (by simp)
  | .text s, level, fuel + 1, text, rest, _, ht => by
    simp only [Value.print, printText, List.cons_append, List.append_assoc, List.nil_append] at ht
    unfold readValue
    refine yields_bind (yields_token ht) (yields_bind (yields_eat _ _) ?_)
    exact yields_bind (yields_readText s rest) (yields_pure _ _)
  | .list items, level, fuel + 1, text, rest, h, ht => by
    have hi : ∃ inner, text.dropWhile isBlank = '[' :: inner ∧
        Yields (readItems fuel true) inner items (']' :: rest) := by
      cases items with
      | nil =>
        have hf : 1 ≤ fuel := by simpa [Value.print] using h
        exact ⟨_, ht, yields_readItems [] true level fuel (']' :: rest) rest hf rfl⟩
      | cons item items =>
        simp only [Value.print, List.length_cons, List.length_append] at h
        refine ⟨printItems (level + 1) (item :: items) ++ (newLine level ++ ']' :: rest), ?_, ?_⟩
        · simpa [Value.print] using ht
        · exact yields_readItems (item :: items) true (level + 1) fuel _ rest
            (by simp only [nextItems, separator]; simp; omega) (dropWhile_newLine level _)
    obtain ⟨inner, ht, hi⟩ := hi
    unfold readValue
    refine yields_bind (yields_token ht) (yields_bind (yields_eat _ _) (yields_bind hi ?_))
    exact yields_bind (yields_endList rfl) (yields_pure _ _)
  | .object fields, level, fuel + 1, text, rest, h, ht => by
    have hi : ∃ inner, text.dropWhile isBlank = '\x7b' :: inner ∧
        Yields (readFields fuel true) inner fields ('\x7d' :: rest) := by
      cases fields with
      | nil =>
        have hf : 1 ≤ fuel := by simpa [Value.print] using h
        exact ⟨_, ht, yields_readFields [] true level fuel ('\x7d' :: rest) rest hf rfl⟩
      | cons field fields =>
        simp only [Value.print, List.length_cons, List.length_append] at h
        refine ⟨printFields (level + 1) (field :: fields) ++ (newLine level ++ '\x7d' :: rest), ?_, ?_⟩
        · simpa [Value.print] using ht
        · exact yields_readFields (field :: fields) true (level + 1) fuel _ rest
            (by simp only [nextFields, separator]; simp; omega) (dropWhile_newLine level _)
    obtain ⟨inner, ht, hi⟩ := hi
    unfold readValue
    refine yields_bind (yields_token ht) (yields_bind (yields_eat _ _) (yields_bind hi ?_))
    exact yields_bind (yields_endObject rfl) (yields_pure _ _)

theorem yields_readItems : ∀ (items : List Value) (first : Bool) (level fuel : Nat)
    (text rest : List Char), (nextItems first level items).length < fuel →
    text.dropWhile isBlank = ']' :: rest →
    Yields (readItems fuel first) (nextItems first level items ++ text) items (']' :: rest)
  | _, _, _, 0, _, _, h, _ => absurd h (Nat.not_lt_zero _)
  | [], first, level, fuel + 1, text, rest, _, ht => by
    unfold readItems
    exact yields_bind (yields_hasNextItem_end ht) (yields_pure _ _)
  | item :: items, first, level, fuel + 1, text, rest, h, ht => by
    rw [nextItems_cons] at h ⊢
    simp only [List.length_append, newLine, List.length_cons] at h
    have hv := yields_readValue item level fuel _ (nextItems false level items ++ text) (by omega)
      (dropWhile_print _ _ _)
    have hi := yields_readItems items false level fuel text rest (by omega) ht
    obtain ⟨c, tail, hc, hb, he⟩ := print_eq_cons item level
    have hn : Yields (hasNextItem first)
        (separator first ++ (newLine level ++ (item.print level ++ nextItems false level items)) ++ text)
        true (item.print level ++ (nextItems false level items ++ text)) := by
      simp only [List.append_assoc]
      rw [hc]
      exact yields_hasNextItem
        (by rw [dropWhile_newLine]; exact List.dropWhile_cons_of_neg (by simp [hb])) he
    unfold readItems
    refine yields_bind hn ?_
    exact yields_bind hv (yields_bind hi (yields_pure _ _))

theorem yields_readFields : ∀ (fields : List (String × Value)) (first : Bool) (level fuel : Nat)
    (text rest : List Char), (nextFields first level fields).length < fuel →
    text.dropWhile isBlank = '\x7d' :: rest →
    Yields (readFields fuel first) (nextFields first level fields ++ text) fields ('\x7d' :: rest)
  | _, _, _, 0, _, _, h, _ => absurd h (Nat.not_lt_zero _)
  | [], first, level, fuel + 1, text, rest, _, ht => by
    unfold readFields
    exact yields_bind (yields_nextKey?_end ht) (yields_pure _ _)
  | (key, value) :: fields, first, level, fuel + 1, text, rest, h, ht => by
    rw [nextFields_cons] at h ⊢
    simp only [List.length_append, newLine, List.length_cons] at h
    have hv := yields_readValue value level fuel
      (' ' :: (value.print level ++ (nextFields false level fields ++ text))) _ (by omega)
      (dropWhile_print _ _ _)
    have hf := yields_readFields fields false level fuel text rest (by omega) ht
    have hk : Yields (nextKey? first)
        (separator first ++ (newLine level ++ (printText key ++
          (':' :: ' ' :: (value.print level ++ nextFields false level fields)))) ++ text)
        (some key) (':' :: ' ' :: (value.print level ++ (nextFields false level fields ++ text))) := by
      simp only [List.append_assoc, List.cons_append]
      exact yields_nextKey? (by rw [dropWhile_newLine]; rfl)
    unfold readFields
    refine yields_bind hk (yields_bind (yields_expectColon _) ?_)
    exact yields_bind hv (yields_bind hf (yields_pure _ _))

end

theorem runOn_eq_ok {α : Type} {r : Reader α} {text : String} {a : α}
    (h : Yields r text.toList a []) : runOn r text = .ok a := by
  have hc : Yields (closing r) text.toList a [] := by
    intro offset
    obtain ⟨offset', h⟩ := h offset
    refine ⟨offset', ?_⟩
    unfold closing
    rw [h]
  have hd : Yields (document (closing r)) text.toList a [] :=
    yields_bind hc (yields_bind (yields_peekToken []) (yields_pure a []))
  obtain ⟨offset, hd⟩ := hd 0
  unfold runOn
  rw [hd]

end Reader

/-! ## Documents -/

/-- A printed value is read back, whatever characters its strings have. -/
theorem Value.ofText_pretty (v : Value) : Value.ofText v.pretty = .ok v := by
  have ht : v.pretty.toList = v.print 0 := String.toList_ofList
  apply runOn_eq_ok
  rw [ht]
  apply yields_get
  intro offset
  have hd := dropWhile_print v 0 []
  rw [List.append_nil] at hd
  exact yields_readValue v 0 _ _ [] (Nat.le_succ _) (by rw [hd, List.append_nil])

end NotebookCell.Json
