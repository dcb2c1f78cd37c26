import NotebookCell.Script.Scan

/-!
# How far readings go

A reading takes characters off the front of a text and counts their bytes. What is left is a suffix
of the text, and its length and the position behind what was read add up to the end of the text.
-/

namespace NotebookCell.Script

theorem utf8Size_of_lt {c : Char} (h : c.toNat < 0x80) : c.utf8Size = 1 :=
  Char.utf8Size_eq_one_iff.mpr (UInt32.le_iff_toNat_le.mpr (Nat.le_of_lt_succ h))

theorem toNat_lt_of_or {a b c : Char} (h : (c == a || c == b) = true) (ha : a.toNat < 0x80)
    (hb : b.toNat < 0x80) : c.toNat < 0x80 := by
  rcases Bool.or_eq_true_iff.mp h with h | h
  · rwa [eq_of_beq h]
  · rwa [eq_of_beq h]

theorem toNat_lt_of_isDigitOf {base : Nat} {c : Char} (h : isDigitOf base c) : c.toNat < 0x80 := by
  obtain ⟨d, hd, -⟩ := (Option.any_eq_true _ _).mp h
  have hle : ∀ b : Char, c ≤ b → b.toNat < 0x80 → c.toNat < 0x80 := fun b hb =>
    Nat.lt_of_le_of_lt (UInt32.le_iff_toNat_le.mp hb)
  unfold hexValue? at hd
  split at hd
  · rename_i hc
    exact hle '9' (of_decide_eq_true (Bool.and_eq_true_iff.mp hc).2) (by decide)
  split at hd
  · rename_i hc
    exact hle 'f' (of_decide_eq_true (Bool.and_eq_true_iff.mp hc).2) (by decide)
  split at hd
  · rename_i hc
    exact hle 'F' (of_decide_eq_true (Bool.and_eq_true_iff.mp hc).2) (by decide)
  · cases hd

theorem byteLength_le_of_suffix {cs rest : List Char} (h : rest <:+ cs) :
    byteLength rest ≤ byteLength cs := by
  obtain ⟨taken, rfl⟩ := h
  rw [byteLength_append]
  exact Nat.le_add_left _ _

theorem consumedBytes_add {cs rest : List Char} (h : rest <:+ cs) :
    consumedBytes cs rest + byteLength rest = byteLength cs := by
  have := byteLength_le_of_suffix h
  rw [consumedBytes]
  omega

/-- The reading took characters off the front of `cs`, which stands at `p`. -/
structure Reading.Takes {α : Type} (r : Reading α) (cs : List Char) (p : Nat) : Prop where
  suffix : r.rest <:+ cs
  total : r.position + byteLength r.rest = p + byteLength cs

/-- What is known of the text of a token, the first `n` bytes of `cs`. -/
def Token.HasText (cs : List Char) (n : Nat) : Token → Prop
  | .punct spelling => n = spelling.length ∧ spelling.toList <+: cs
  | .word _ _ => 0 < n ∧ cs.head? ≠ some ';'
  | .text _ _ => 0 < n
  | _ => True

/-- The token was read from the front of `cs`, which stands at `p`. -/
structure Reading.Scans (r : Reading Token) (cs : List Char) (p : Nat) : Prop extends r.Takes cs p where
  text : r.result.HasText cs (r.position - p)

namespace Reading

variable {α β : Type} {r : Reading α} {e : Reading β} {c : Char} {cs rest : List Char} {p : Nat}

theorem Takes.le (h : r.Takes cs p) : p ≤ r.position := by
  have := byteLength_le_of_suffix h.suffix
  have := h.total
  omega

theorem takes_nothing (a : α) (fs : List Fault) : (⟨a, cs, p, fs⟩ : Reading α).Takes cs p :=
  ⟨List.suffix_rfl, rfl⟩

theorem takes_consumed (h : rest <:+ cs) (a : α) (fs : List Fault) :
    (⟨a, rest, p + consumedBytes cs rest, fs⟩ : Reading α).Takes cs p := by
  have := consumedBytes_add h
  exact ⟨h, by dsimp only; omega⟩

theorem Takes.trans (h : r.Takes e.rest e.position) (h' : e.Takes cs p) : r.Takes cs p :=
  ⟨h.suffix.trans h'.suffix, h.total.trans h'.total⟩

theorem Takes.cons (h : r.Takes cs (p + c.utf8Size)) : r.Takes (c :: cs) p := by
  obtain ⟨hsuffix, htotal⟩ := h
  exact ⟨hsuffix.trans (List.suffix_cons c cs), by rw [byteLength_cons]; omega⟩

theorem Takes.cons_ascii (h : r.Takes cs (p + 1)) (hc : c.toNat < 0x80 := by decide) :
    r.Takes (c :: cs) p := by
  rw [← utf8Size_of_lt hc] at h
  exact h.cons

/-- An ASCII character is taken besides. -/
theorem Takes.and_ascii (h : e.Takes cs p) (hrest : e.rest = c :: rest) (hc : c.toNat < 0x80) (a : α)
    (fs : List Fault) : (⟨a, rest, e.position + 1, fs⟩ : Reading α).Takes cs p := by
  obtain ⟨hsuffix, htotal⟩ := h
  rw [hrest] at hsuffix
  rw [hrest, byteLength_cons, utf8Size_of_lt hc] at htotal
  exact ⟨(List.suffix_cons c rest).trans hsuffix, by dsimp only; omega⟩

end Reading

open Reading

/-! ## Escapes and words -/

theorem readHex_suffix (room : Nat) (cs : List Char) (value count : Nat) (misplaced : Bool) :
    (readHex room cs value count misplaced).rest <:+ cs := by
  fun_induction readHex room cs value count misplaced with
  | case1 => exact List.suffix_rfl
  | case2 _ _ _ _ _ _ _ ih => exact ih.trans (List.suffix_cons _ _)
  | case3 => exact List.suffix_rfl
  | case4 => exact List.suffix_cons _ _
  | case5 _ _ _ _ _ _ _ _ _ _ ih => exact ih.trans (List.suffix_cons _ _)
  | case6 => exact List.suffix_rfl

theorem takes_readBracedEscape (cs : List Char) (start : Nat) :
    (readBracedEscape cs start).Takes cs start := by
  have hrun := readHex_suffix (cs.length + 1) cs 0 0 false
  unfold readBracedEscape
  dsimp only
  split
  · exact takes_consumed hrun _ _
  split
  · exact takes_consumed hrun _ _
  -- what is left is that behind the digits, or that behind the spelling of a surrogate
  generalize hpair : (if isSurrogate _ then _ else _) = pair
  have hpair : pair.2 <:+ cs := by
    rw [← hpair]
    split
    · exact List.drop_suffix _ _
    · exact hrun
  obtain ⟨chars, rest⟩ := pair
  dsimp only at hpair ⊢
  split
  · exact (takes_consumed (a := ()) hpair []).and_ascii rfl (by decide) _ _
  · exact takes_consumed hpair _ _

theorem takes_readUnicodeEscape (cs : List Char) (p : Nat) :
    (readUnicodeEscape cs p).Takes cs p := by
  have hrun := readHex_suffix 4 cs 0 0 false
  unfold readUnicodeEscape
  split
  · exact (takes_readBracedEscape _ (p + 1)).cons_ascii
  dsimp only
  split
  · exact takes_consumed hrun _ _
  split
  · exact takes_consumed (List.drop_suffix 4 cs) _ _
  · exact takes_consumed hrun _ _

theorem takes_readWord (fuel : Nat) (cs : List Char) (p : Nat) (w : WordChars) (fs : List Fault) :
    (readWord fuel cs p w fs).Takes cs p := by
  have hescape : ∀ (cs : List Char) (p : Nat),
      (readUnicodeEscape cs (p + 2)).Takes ('\\' :: 'u' :: cs) p :=
    fun cs p => (takes_readUnicodeEscape cs (p + 2)).cons_ascii.cons_ascii
  fun_induction readWord fuel cs p w fs with
  | case1 fuel p w fs cs e chars he fs' ih => exact ih.trans (hescape cs p)
  | case2 fuel p w fs cs e f he =>
    obtain ⟨hsuffix, htotal⟩ := hescape cs p
    exact ⟨hsuffix, htotal⟩
  | case3 => exact (takes_nothing _ _).cons_ascii
  | case4 fuel c cs p w fs _ _ ih => exact ih.cons
  | case5 => exact takes_nothing _ _
  | case6 => exact takes_nothing _ _

/-- A word that begins with a character of words is not empty. -/
theorem lt_position_readWord {c : Char} (hc : (c == '\\' || Identifier.isStart c) = true) (fuel : Nat)
    (cs : List Char) (p : Nat) (w : WordChars) (fs : List Fault) :
    p < (readWord (fuel + 1) (c :: cs) p w fs).position := by
  by_cases hslash : c = '\\'
  · subst hslash
    by_cases hu : ∃ rest, cs = 'u' :: rest
    · obtain ⟨rest, rfl⟩ := hu
      have := (takes_readUnicodeEscape rest (p + 2)).le
      rw [readWord]
      dsimp only
      split
      · refine Nat.lt_of_lt_of_le ?_ (takes_readWord _ _ _ _ _).le
        omega
      · dsimp only
        omega
    · rw [readWord]
      · exact Nat.lt_succ_self p
      · exact fun rest hrest => hu ⟨rest, hrest⟩
  · have hpart : Identifier.isPart c := Identifier.isPart_of_isStart (by simpa [hslash] using hc)
    rw [readWord, if_pos hpart]
    · exact Nat.lt_of_lt_of_le (Nat.lt_add_of_pos_right c.utf8Size_pos) (takes_readWord _ _ _ _ _).le
    · exact hslash

theorem scans_scanWord (reserved : String → Bool) {c : Char} (cs : List Char) (p : Nat)
    (hc : (c == '\\' || Identifier.isStart c) = true) :
    (scanWord reserved (c :: cs) p).Scans (c :: cs) p := by
  have hlt := lt_position_readWord hc (c :: cs).length cs p ⟨[], false⟩ []
  obtain ⟨hsuffix, htotal⟩ := takes_readWord ((c :: cs).length + 1) (c :: cs) p ⟨[], false⟩ []
  unfold scanWord
  dsimp only
  split
  · exact ⟨⟨hsuffix, htotal⟩, trivial⟩
  · refine ⟨⟨hsuffix, htotal⟩, ?_⟩
    dsimp only
    split
    · trivial
    · refine ⟨Nat.sub_pos_of_lt hlt, ?_⟩
      rintro ⟨⟩
      exact absurd hc (by decide)

/-! ## Numbers -/

theorem readDigits_suffix (base : Nat) (cs digits : List Char) (misplaced : Bool) :
    (readDigits base cs digits misplaced).2.2 <:+ cs := by
  fun_induction readDigits base cs digits misplaced with
  | case1 _ _ _ _ _ ih => exact ih.trans (List.suffix_cons _ _)
  | case2 _ _ _ _ _ _ ih => exact ih.trans (List.suffix_cons _ _)
  | case3 => exact List.suffix_rfl
  | case4 => exact List.suffix_rfl

theorem takes_digits (base : Nat) (cs : List Char) (p : Nat) : (digits base cs p).Takes cs p :=
  takes_consumed (readDigits_suffix base cs [] false) _ _

theorem takes_someDigits (base : Nat) (cs : List Char) (p : Nat) :
    (someDigits base cs p).Takes cs p := by
  obtain ⟨hsuffix, htotal⟩ := takes_digits base cs p
  exact ⟨hsuffix, htotal⟩

theorem scans_endNumber {cs cs' : List Char} {p : Nat} {r : Reading Unit} (h : r.Takes cs p)
    {token : String → Token} (htoken : ∀ raw n, (token raw).HasText cs n) :
    (endNumber cs' token r).Scans cs p := by
  refine ⟨⟨h.suffix, h.total⟩, ?_⟩
  unfold endNumber
  dsimp only
  split
  · trivial
  · exact htoken _ _

theorem takes_readExponent (cs : List Char) (p : Nat) : (readExponent cs p).Takes cs p := by
  unfold readExponent
  split
  · exact takes_nothing _ _
  rename_i c tail
  have hdigits : (if c == '+' || c == '-' then someDigits 10 tail (p + 1)
      else someDigits 10 (c :: tail) p).Takes (c :: tail) p := by
    split
    · rename_i hsign
      exact (takes_someDigits 10 tail (p + 1)).cons_ascii
        (toNat_lt_of_or hsign (by decide) (by decide))
    · exact takes_someDigits 10 (c :: tail) p
  exact ⟨hdigits.suffix, hdigits.total⟩

theorem scans_scanExponent {cs rest : List Char} {p p' : Nat} (m : Mantissa)
    (h : (⟨(), rest, p', []⟩ : Reading Unit).Takes cs p) :
    (scanExponent cs m rest p').Scans cs p := by
  have hplain : (endNumber cs (.number (decimalValue m.whole m.fraction 0))
      ⟨(), rest, p', m.faults⟩).Scans cs p := by
    apply scans_endNumber
    · exact ⟨h.suffix, h.total⟩
    · exact fun _ _ => trivial
  unfold scanExponent
  dsimp only
  split
  · rename_i c tail
    split
    · rename_i he
      have hexponent : (readExponent tail (p' + 1)).Takes cs p :=
        ((takes_readExponent tail (p' + 1)).cons_ascii
          (toNat_lt_of_or he (by decide) (by decide))).trans h
      split
      · exact ⟨⟨hexponent.suffix, hexponent.total⟩, trivial⟩
      · exact scans_endNumber ⟨hexponent.suffix, hexponent.total⟩ fun _ _ => trivial
    · exact hplain
  · exact hplain

theorem scans_scanBased (base : Nat) {cs tail : List Char} {p : Nat}
    (h : (⟨(), tail, p + 2, []⟩ : Reading Unit).Takes cs p) :
    (scanBased base cs tail p).Scans cs p := by
  have hdigits := (takes_someDigits base tail (p + 2)).trans h
  unfold scanBased
  dsimp only
  split
  · exact ⟨⟨hdigits.suffix, hdigits.total⟩, trivial⟩
  split
  · rename_i rest hrest
    exact ⟨hdigits.and_ascii hrest (by decide) _ _, trivial⟩
  · exact scans_endNumber ⟨hdigits.suffix, hdigits.total⟩ fun _ _ => trivial

theorem scans_endOctal {cs : List Char} {p : Nat} {d : Reading (List Char)} (h : d.Takes cs p)
    (strict : Bool) : (endOctal strict cs p d).Scans cs p := by
  have hend : (endNumber cs (.number (basedValue 8 d.result))
      ⟨(), d.rest, d.position, d.faults⟩).Scans cs p := by
    apply scans_endNumber
    · exact ⟨h.suffix, h.total⟩
    · exact fun _ _ => trivial
  unfold endOctal
  dsimp only
  split
  · exact hend
  split
  · exact ⟨⟨hend.suffix, hend.total⟩, hend.text⟩
  · exact hend

theorem scans_scanDecimal (strict : Bool) (cs : List Char) (p : Nat) :
    (scanDecimal strict cs p).Scans cs p := by
  have h := takes_digits 10 cs p
  unfold scanDecimal
  dsimp only
  split
  · rename_i rest hrest
    exact ⟨h.and_ascii hrest (by decide) _ _, trivial⟩
  split
  · exact scans_endOctal h strict
  split
  · rename_i rest hrest
    have hpoint := h.and_ascii hrest (by decide) () []
    obtain ⟨hsuffix, htotal⟩ := (takes_digits 10 rest _).trans hpoint
    exact scans_scanExponent _ ⟨hsuffix, htotal⟩
  · exact scans_scanExponent _ ⟨h.suffix, h.total⟩

theorem scans_scanNumber (strict : Bool) (cs : List Char) (p : Nat) :
    (scanNumber strict cs p).Scans cs p := by
  have hbased : ∀ (base : Nat) (c : Char) (tail : List Char), c.toNat < 0x80 →
      (scanBased base ('0' :: c :: tail) tail p).Scans ('0' :: c :: tail) p := fun base c tail hc =>
    scans_scanBased base ((takes_nothing () []).cons_ascii hc).cons_ascii
  unfold scanNumber
  split
  · split
    · rename_i h
      exact hbased 16 _ _ (toNat_lt_of_or h (by decide) (by decide))
    split
    · rename_i h
      exact hbased 8 _ _ (toNat_lt_of_or h (by decide) (by decide))
    split
    · rename_i h
      exact hbased 2 _ _ (toNat_lt_of_or h (by decide) (by decide))
    · exact scans_scanDecimal strict _ p
  · rename_i tail
    obtain ⟨hsuffix, htotal⟩ := (takes_digits 10 tail (p + 1)).cons_ascii (c := '.')
    exact scans_scanExponent _ ⟨hsuffix, htotal⟩
  · exact scans_scanDecimal strict _ p

/-! ## Strings and templates -/

theorem readOctal_suffix (limit : Nat) (cs : List Char) (value : Nat) :
    (readOctal limit cs value).2 <:+ cs := by
  fun_induction readOctal limit cs value with
  | case1 _ _ _ _ _ ih => exact ih.trans (List.suffix_cons _ _)
  | case2 => exact List.suffix_rfl
  | case3 => exact List.suffix_rfl

theorem takes_octalEscape (strict inTemplate : Bool) (p : Nat) (c : Char) (cs : List Char) :
    (octalEscape strict inTemplate p c cs).Takes cs (p + 2) := by
  unfold octalEscape
  split
  · exact takes_nothing _ _
  split
  · exact takes_nothing _ _
  · exact takes_consumed (readOctal_suffix 2 cs _) _ _

/-- An escape is read from behind its backslash on. -/
theorem takes_readStringEscape (strict inTemplate : Bool) (cs : List Char) (p : Nat) :
    (readStringEscape strict inTemplate cs p).Takes cs (p + 1) := by
  unfold readStringEscape
  split
  · exact takes_nothing _ _
  · exact (takes_nothing _ _).cons_ascii.cons_ascii
  · exact (takes_consumed (readHex_suffix 2 _ 0 0 false) _ _).cons_ascii
  · rename_i rest
    obtain ⟨hsuffix, htotal⟩ := (takes_readUnicodeEscape rest (p + 2)).cons_ascii (c := 'u')
    exact ⟨hsuffix, htotal⟩
  · rename_i c rest _ _ _
    split
    · exact (takes_nothing _ _).cons
    split
    · rename_i hdigit
      exact (takes_octalEscape strict inTemplate p c rest).cons_ascii (toNat_lt_of_isDigitOf hdigit)
    · exact (takes_nothing _ _).cons

theorem takes_readString (strict : Bool) (quote : Char) (start fuel : Nat) (cs : List Char) (p : Nat)
    (value : List Char) (fs : List Fault) :
    (readString strict quote start fuel cs p value fs).Takes cs p := by
  have hescape : ∀ (c : Char) (cs : List Char) (p : Nat), (c == '\\') = true →
      (readStringEscape strict false cs p).Takes (c :: cs) p := fun c cs p hc => by
    rw [eq_of_beq hc]
    exact (takes_readStringEscape strict false cs p).cons_ascii
  fun_induction readString strict quote start fuel cs p value fs with
  | case1 => exact (takes_nothing _ _).cons
  | case2 fuel c cs p value fs _ hc e chars he ih => exact ih.trans (hescape c cs p hc)
  | case3 fuel c cs p value fs _ hc e error he =>
    obtain ⟨hsuffix, htotal⟩ := hescape c cs p hc
    exact ⟨hsuffix, htotal⟩
  | case4 => exact takes_nothing _ _
  | case5 _ _ _ _ _ _ _ _ _ ih => exact ih.cons
  | case6 => exact takes_nothing _ _

theorem scans_scanString (strict : Bool) {quote : Char} (hquote : quote.toNat < 0x80) (cs : List Char)
    (p : Nat) : (scanString strict quote (quote :: cs) p).Scans (quote :: cs) p := by
  have h := takes_readString strict quote p ((quote :: cs).length + 1) cs (p + 1) [] []
  have hlt := h.le
  obtain ⟨hsuffix, htotal⟩ := h.cons_ascii hquote
  refine ⟨⟨hsuffix, htotal⟩, ?_⟩
  unfold scanString
  dsimp only [List.drop_succ_cons, List.drop_zero]
  split
  · exact Nat.sub_pos_of_lt hlt
  · trivial

theorem takes_readTemplate (strict : Bool) (fuel : Nat) (cs : List Char) (p : Nat) (bad : Option Fault)
    (fs : List Fault) : (readTemplate strict fuel cs p bad fs).Takes cs p := by
  fun_induction readTemplate strict fuel cs p bad fs with
  | case1 => exact takes_nothing _ _
  | case2 fuel c cs p bad fs _ hc e bad' ih =>
    refine ih.trans ?_
    rw [eq_of_beq hc]
    exact (takes_readStringEscape strict true cs p).cons_ascii
  | case3 _ _ _ _ _ _ _ _ ih => exact ih.cons
  | case4 => exact takes_nothing _ _

theorem scans_scanTemplate (strict afterText : Bool) (start : Nat) (cs : List Char) (p : Nat) :
    (scanTemplate strict afterText start cs p).Scans cs p := by
  unfold scanTemplate
  split
  · exact ⟨(takes_nothing _ _).cons_ascii, Nat.add_sub_cancel_left p 1, ⟨_, rfl⟩⟩
  · exact ⟨(takes_nothing _ _).cons_ascii.cons_ascii, Nat.add_sub_cancel_left p 2, ⟨_, rfl⟩⟩
  · obtain ⟨hsuffix, htotal⟩ := takes_readTemplate strict (cs.length + 1) cs p none []
    refine ⟨⟨hsuffix, htotal⟩, ?_⟩
    dsimp only
    split
    · trivial
    · trivial

/-! ## Regular expressions -/

theorem regexRest_suffix (cs : List Char) (escaped inClass : Bool) :
    regexRest cs escaped inClass <:+ cs := by
  fun_induction regexRest cs escaped inClass with
  | case1 => exact List.suffix_rfl
  | case2 => exact List.suffix_rfl
  | case3 _ _ _ _ ih => exact ih.trans (List.suffix_cons _ _)
  | case4 => exact List.suffix_rfl
  | case5 _ _ _ _ _ _ _ ih => exact ih.trans (List.suffix_cons _ _)

/-- A regular expression is read from behind the slash at `start`; a part of its text may have been
taken before. -/
theorem takes_scanRegex {cs cs' : List Char} {start p : Nat}
    (hsuffix : regexRest cs false false <:+ cs')
    (htotal : start + 1 + byteLength cs = p + byteLength cs') : (scanRegex cs start).Takes cs' p := by
  have hrest := consumedBytes_add (regexRest_suffix cs false false)
  have hbody : (⟨(), regexRest cs false false, start + 1 + consumedBytes cs (regexRest cs false false),
      []⟩ : Reading Unit).Takes cs' p := ⟨hsuffix, by dsimp only; omega⟩
  unfold scanRegex
  dsimp only
  split
  · rename_i tail hslash
    have hend := hbody.and_ascii hslash (by decide) () []
    split
    · obtain ⟨hsuffix, htotal⟩ := (takes_readWord (tail.length + 1) tail _ ⟨[], false⟩ []).trans hend
      exact ⟨hsuffix, htotal⟩
    · exact ⟨hend.suffix, hend.total⟩
  · exact ⟨hbody.suffix, hbody.total⟩

theorem hasText_scanRegex (cs cs' : List Char) (start n : Nat) :
    (scanRegex cs start).result.HasText cs' n := by
  unfold scanRegex
  dsimp only
  split
  · split
    · split
      · trivial
      · trivial
    · trivial
  · trivial

theorem regexRest_equals (cs : List Char) :
    regexRest ('=' :: cs) false false = regexRest cs false false :=
  rfl

/-! ## Gaps -/

def AfterGap.reading (g : AfterGap) : Reading Unit := ⟨(), g.rest, g.position, g.faults⟩

theorem takes_skipGap (inModule : Bool) (gap : Gap) (cs : List Char) (p : Nat) (newline : Bool)
    (start : Option Nat) (late faults : List Fault) :
    (skipGap inModule gap cs p newline start late faults).reading.Takes cs p := by
  fun_induction skipGap inModule gap cs p newline start late faults with
  | case1 _ _ _ _ _ _ ih => exact Takes.cons_ascii (Takes.cons_ascii ih)
  | case2 _ _ _ _ _ _ ih => exact Takes.cons_ascii (Takes.cons_ascii ih)
  | case3 _ _ _ _ _ _ ih =>
    exact Takes.cons_ascii (Takes.cons_ascii (Takes.cons_ascii (Takes.cons_ascii ih)))
  | case4 _ _ _ _ _ ih => exact Takes.cons_ascii (Takes.cons_ascii (Takes.cons_ascii ih))
  | case5 => exact takes_nothing _ _
  | case6 _ _ _ _ _ _ _ _ _ _ _ _ ih => exact Takes.cons ih
  | case7 _ _ _ _ _ _ _ _ _ _ _ _ _ ih => exact Takes.cons ih
  | case8 _ _ _ _ _ _ _ _ _ _ _ _ _ _ ih => exact Takes.cons ih
  | case9 => exact takes_nothing _ _
  | case10 _ _ _ _ _ _ _ _ ih => exact Takes.cons ih
  | case11 _ _ _ _ _ _ _ _ ih => exact Takes.cons ih
  | case12 _ _ _ _ _ _ ih => exact Takes.cons_ascii (Takes.cons_ascii ih)
  | case13 _ _ _ _ _ _ _ _ ih => exact Takes.cons ih
  | case14 => exact takes_nothing _ _
  | case15 => exact takes_nothing _ _

/-- In a module, a comment that belongs to the token behind it is a fault. -/
theorem start_skipGap (gap : Gap) (cs : List Char) (p : Nat) (newline : Bool) (start : Option Nat)
    (late faults : List Fault) (h : (skipGap true gap cs p newline start late faults).faults = []) :
    (skipGap true gap cs p newline start late faults).start = start ∧ late = [] ∧ faults = [] := by
  fun_induction skipGap true gap cs p newline start late faults with
  | case1 _ _ _ _ _ _ ih => exact ih h
  | case2 _ _ _ _ _ _ ih => exact ih h
  | case3 _ _ _ _ _ _ ih => simpa using (ih h).2.1
  | case4 _ _ _ _ _ ih => simpa using (ih h).2.2
  | case5 => simpa using h
  | case6 _ _ _ _ _ _ _ _ _ _ _ _ ih => exact ih h
  | case7 _ _ _ _ _ _ _ _ _ _ _ _ _ ih => exact ih h
  | case8 _ _ _ _ _ _ _ _ _ _ _ _ _ _ ih => simpa using (ih h).2.2
  | case9 => simpa using h
  | case10 _ _ _ _ _ _ _ _ ih => exact ih h
  | case11 _ _ _ _ _ _ _ _ ih => exact ih h
  | case12 _ _ _ _ _ _ ih => exact ih h
  | case13 _ _ _ _ _ _ _ _ ih => exact ih h
  | case14 => simp at h
  | case15 => simpa using h

/-! ## Tokens -/

theorem takes_scanHashbang (cs : List Char) : (scanHashbang cs).Takes cs 0 := by
  have hsuffix : (scanHashbang cs).rest <:+ cs := List.dropWhile_suffix _
  exact ⟨hsuffix, (consumedBytes_add hsuffix).trans (Nat.zero_add _).symm⟩

theorem scans_scanConflictBars (d : Dialect) (cs : List Char) (p : Nat) :
    (scanConflictBars d cs p).Scans cs p := by
  obtain ⟨hsuffix, htotal⟩ := takes_skipGap d.inModule .lineComment cs p true none [] []
  exact ⟨⟨hsuffix, htotal⟩, trivial⟩

theorem byteLength_punctuator : ∀ s ∈ punctuators, byteLength s.toList = s.length := by
  decide

/-- The token, if there is one, was read from the front of `cs`, which stands at `p`. -/
structure Reading.ScansSome (r : Reading (Option Token)) (cs : List Char) (p : Nat) : Prop
    extends r.Takes cs p where
  text : ∀ token, r.result = some token → token.HasText cs (r.position - p)

theorem Reading.Scans.whole {r : Reading Token} {cs : List Char} {p : Nat} (h : r.Scans cs p) :
    ({ r with result := some r.result } : Reading (Option Token)).ScansSome cs p := by
  refine ⟨⟨h.suffix, h.total⟩, ?_⟩
  rintro token ⟨⟩
  exact h.text

theorem scansSome_punctuator {spelling : String} {cs : List Char} (hmem : spelling ∈ punctuators)
    (h : startsWith cs spelling) (p : Nat) :
    (⟨some (.punct spelling), cs.drop spelling.length, p + spelling.length, []⟩ :
      Reading (Option Token)).ScansSome cs p := by
  obtain ⟨rest, rfl⟩ := List.isPrefixOf_iff_prefix.mp h
  have hlength := byteLength_punctuator spelling hmem
  rw [← String.length_toList, List.drop_left]
  refine ⟨⟨by simp, ?_⟩, ?_⟩
  · rw [byteLength_append, hlength, String.length_toList, Nat.add_assoc]
  · rintro token ⟨⟩
    rw [String.length_toList]
    exact ⟨Nat.add_sub_cancel_left p _, List.prefix_append _ _⟩

theorem scansSome_scanToken (d : Dialect) (newline : Bool) (cs : List Char) (p : Nat) :
    (scanToken d newline cs p).ScansSome cs p := by
  unfold scanToken
  split
  · exact ⟨takes_nothing _ _, fun _ h => nomatch h⟩
  rename_i c tail
  dsimp only
  split
  · rename_i hnull
    exact ⟨(takes_nothing _ _).cons_ascii (by omega), fun _ h => nomatch h⟩
  split
  · rename_i hquote
    exact (scans_scanString d.strict (toNat_lt_of_or hquote (by decide) (by decide)) tail p).whole
  split
  · exact (scans_scanNumber d.strict (c :: tail) p).whole
  split
  · rename_i hword
    exact (scans_scanWord d.reserved tail p hword).whole
  split
  · exact (scans_scanConflictBars d (c :: tail) p).whole
  split
  · rename_i spelling hfound
    exact scansSome_punctuator (List.mem_of_find?_eq_some hfound) (List.find?_some hfound) p
  · refine ⟨(takes_nothing _ _).cons, ?_⟩
    rintro token ⟨⟩
    trivial

end NotebookCell.Script
