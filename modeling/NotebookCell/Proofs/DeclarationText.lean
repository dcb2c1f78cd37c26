import NotebookCell.Proofs.StatementText
import NotebookCell.Proofs.WholeText

/-!
# The text of variable declarations

Edits are made in an order of their own: what is directly in a pattern before what is in the patterns
inside, and the parentheses of a declarator after both. What they leave of a declaration is still what
one recursion over its tree prints: each node prints its parts, and copies the text between them.
-/

namespace NotebookCell

open Script TaggedText

/-! ## Text with parts exchanged -/

/-- A range and what stands in the place of its text. -/
structure Piece where
  span : Span
  text : TaggedText

/-- The text from one position up to another, with that of the pieces in it exchanged. -/
def weave (held : Nat → Slot) : List Piece → Nat → Nat → TaggedText
  | [], a, b => stretch held a b
  | p :: ps, a, b => stretch held a p.span.start ++ p.text ++ weave held ps p.span.stop b

theorem stretch_eq_weave {held held' : Nat → Slot} {ps : List Piece} {a b : Nat}
    (h : ascending a (ps.map Piece.span) b)
    (hin : ∀ p ∈ ps, stretch held' p.span.start p.span.stop = p.text)
    (hout : ∀ i, a ≤ i → i < b → (∀ p ∈ ps, ¬p.span.contains i) → held' i = held i) :
    stretch held' a b = weave held ps a b := by
  induction ps generalizing a with
  | nil => exact stretch_congr fun i hi hi' => hout i hi hi' (by simp)
  | cons p ps ih =>
    obtain ⟨h1, h2, h3⟩ : a ≤ p.span.start ∧ p.span.start < p.span.stop ∧ _ := ascending_cons.mp h
    have hle := le_of_ascending h3
    have hbehind : ∀ i, i < p.span.stop → ∀ q ∈ ps, ¬q.span.contains i := fun i hi q hq => by
      simp [not_contains_of_lt_ascending h3 hi _ (List.mem_map_of_mem hq)]
    have hbefore : stretch held' a p.span.start = stretch held a p.span.start := by
      refine stretch_congr fun i hi hi' => hout i hi (by omega) (List.forall_mem_cons.mpr ⟨?_, ?_⟩)
      · rw [Span.contains_iff]
        omega
      · exact hbehind i (by omega)
    have hrest : stretch held' p.span.stop b = weave held ps p.span.stop b := by
      refine ih h3 (fun q hq => hin q (by simp [hq])) fun i hi hi' hq => ?_
      refine hout i (by omega) hi' (List.forall_mem_cons.mpr ⟨?_, hq⟩)
      rw [Span.contains_iff]
      omega
    rw [weave, ← hbefore, ← hrest, ← hin p (by simp), List.append_assoc,
      stretch_append (Nat.le_of_lt h2) hle, stretch_append h1 (by omega)]

/-- The text in the place of a node, unless the node is missing. -/
def piece (t : Tree) (text : TaggedText) : List Piece :=
  if t.label = .absent then [] else [⟨t.span, text⟩]

theorem piece_congr {t : Tree} {x y : TaggedText} (h : t.label ≠ .absent → x = y) : piece t x = piece t y := by
  unfold piece
  split
  · rfl
  · rw [h ‹_›]

section
variable {ts : List Tree} {a b : Nat}

theorem ascending_pieces (r : Tree → TaggedText) (hab : a ≤ b) (ho : inOrder ts)
    (hn : ∀ t ∈ ts, t.nestedIn ⟨a, b⟩) : ascending a ((ts.flatMap fun t => piece t (r t)).map Piece.span) b := by
  induction ts generalizing a with
  | nil => simpa [ascending] using hab
  | cons t ts ih =>
    obtain ⟨ht, ho⟩ := inOrder_cons.mp ho
    rw [List.flatMap_cons, piece]
    by_cases hl : t.label = .absent
    · rw [if_pos hl]
      exact ih hab ho fun u hu => hn u (by simp [hu])
    · obtain ⟨h1, h2, h3⟩ := nestedIn_span hl (hn t (by simp))
      rw [if_neg hl]
      refine ascending_cons.mpr ⟨h1, h2, ih h3 ho fun u hu => ?_⟩
      have hu' := hn u (by simp [hu])
      by_cases hul : u.label = .absent
      · obtain ⟨label, span, children⟩ := u
        simp_all [Tree.nestedIn, Tree.label]
      · have hb := (isBefore_iff hl hul).mp (ht u hu)
        exact nestedIn_mono (nestedIn_self hul hu') hb (nestedIn_span hul hu').2.2

/-- Where edits insert in some nodes only, the text between the nodes stays. -/
theorem stretch_nodes {es : List Edit} {held : Nat → Slot} (hab : a ≤ b) (ho : inOrder ts)
    (hn : ∀ t ∈ ts, t.nestedIn ⟨a, b⟩)
    (hin : ∀ e ∈ es, ∃ t ∈ ts, t.label ≠ .absent ∧ e.InsertsIn t.span) :
    stretch (fun i => actAll es i (held i)) a b = weave held (ts.flatMap fun t =>
      piece t (stretch (fun i => actAll es i (held i)) t.span.start t.span.stop)) a b := by
  refine stretch_eq_weave (ascending_pieces _ hab ho hn) ?_ ?_
  · intro p hp
    obtain ⟨t, -, hp⟩ := List.mem_flatMap.mp hp
    unfold piece at hp
    split at hp
    · cases hp
    · rw [List.mem_singleton.mp hp]
  · intro i _ _ hout
    refine actAll_of_outside (fun e he => ?_) _
    obtain ⟨t, ht, hl, hin⟩ := hin e he
    have hi : ¬(t.span.start ≤ i ∧ i < t.span.stop) := fun hi =>
      hout _ (List.mem_flatMap.mpr ⟨t, ht, by rw [piece, if_neg hl]; exact List.mem_singleton_self _⟩)
        (Span.contains_iff.mpr hi)
    have h1 := hin.start_le
    have h2 := hin.stop_le
    exact ⟨hin.start_lt_stop, by omega⟩

end

/-! ## The printer -/

section
variable (G : String) (held : Nat → Slot)

mutual

/-- A target of a binding, or a property of a pattern. -/
def printed : Tree → TaggedText
  | .node (.name _) span _ => inserted (G ++ ".") ++ stretch held span.start span.stop
  | .node .initialized span (.node (.name name) nameSpan _ :: _) =>
    weave held [⟨nameSpan, stretch held nameSpan.start nameSpan.stop ++
      inserted (": " ++ G ++ "." ++ name)⟩] span.start span.stop
  | .node .objectPattern span properties => weave held (printedPieces properties) span.start span.stop
  | .node .arrayPattern span elements => weave held (printedPieces elements) span.start span.stop
  | .node .keyValue span [_, value] =>
    weave held (piece value (printed value)) span.start span.stop
  | .node .withDefault span (target :: _) =>
    weave held (piece target (printed target)) span.start span.stop
  | .node .rest span (target :: _) =>
    weave held (piece target (printed target)) span.start span.stop
  | .node _ span _ => stretch held span.start span.stop

def printedPieces : List Tree → List Piece
  | [] => []
  | t :: ts => piece t (printed t) ++ printedPieces ts

end

theorem printedPieces_eq (ts : List Tree) :
    printedPieces G held ts = ts.flatMap fun t => piece t (printed G held t) := by
  induction ts with
  | nil => rfl
  | cons t ts ih => rw [printedPieces, ih, List.flatMap_cons]

/-- A declarator of a declaration that stays a statement is an assignment in parentheses. -/
def printedDeclarator (form : DeclarationForm) : Tree → TaggedText
  | .node .declarator span [target, init] =>
    match form with
    | .loopHead => weave held (piece target (printed G held target)) span.start span.stop
    | .statement =>
      inserted "(" ++ weave held (piece target (printed G held target) ++ piece init
          (inserted "(" ++ stretch held init.span.start init.span.stop ++ inserted ")"))
        span.start span.stop ++ inserted (if init.label = .absent then " = undefined)" else ")")
  | .node _ span _ => stretch held span.start span.stop

def printedDeclarators (form : DeclarationForm) (declarators : List Tree) : List Piece :=
  declarators.flatMap fun d => piece d (printedDeclarator G held form d)

/-- The keyword goes, and behind the last declarator is what was behind it. -/
def printedDeclaration (form : DeclarationForm) (kind : VarKind) (span : Span) (declarators : List Tree) :
    TaggedText :=
  let start := span.start + kind.word.utf8ByteSize
  let pieces := printedDeclarators G held form declarators
  match form, declarators.getLast? with
  | .loopHead, _ => weave held pieces start span.stop
  | .statement, none => inserted "void (" ++ stretch held start span.stop
  | .statement, some last =>
    inserted "void (" ++ weave held pieces start last.span.stop ++ inserted ")" ++
      stretch held last.span.stop span.stop

end

/-! ## Patterns -/

/-- Where all nodes are edited in two rounds, a node gets on its span its own edits of both. -/
theorem stretch_rounds {f g : Tree → Published} {ts : List Tree} {a b : Nat} (held : Nat → Slot)
    (hab : a ≤ b) (ho : inOrder ts) (hn : ∀ t ∈ ts, t.nestedIn ⟨a, b⟩)
    (hin : ∀ t ∈ ts, ∀ e ∈ (f t ++ g t).edits, t.label ≠ .absent ∧ e.InsertsIn t.span)
    {r : Tree → TaggedText} (hr : ∀ t ∈ ts, t.label ≠ .absent →
      stretch (fun i => actAll (f t ++ g t).edits i (held i)) t.span.start t.span.stop = r t) :
    stretch (fun i => actAll (Published.all f ts ++ Published.all g ts).edits i (held i)) a b =
      weave held (ts.flatMap fun t => piece t (r t)) a b := by
  have hf : ∀ t ∈ ts, ∀ e ∈ (f t).edits, t.label ≠ .absent ∧ e.InsertsIn t.span := fun t ht e he =>
    hin t ht e (List.mem_append_left _ he)
  have hg : ∀ t ∈ ts, ∀ e ∈ (g t).edits, t.label ≠ .absent ∧ e.InsertsIn t.span := fun t ht e he =>
    hin t ht e (List.mem_append_right _ he)
  rw [stretch_nodes hab ho hn]
  · congr 1
    refine List.flatMap_congr fun t ht => piece_congr fun hl => ?_
    have hb := sideBySide_of_inOrder ho
    rw [← hr t ht hl]
    exact stretch_of_actLike ((actLike_all hf hb ht hl).append (actLike_all hg hb ht hl))
  · intro e he
    rcases List.mem_append.mp he with he | he
    · obtain ⟨t, ht, he⟩ := mem_edits_all he
      exact ⟨t, ht, hf t ht e he⟩
    · obtain ⟨t, ht, he⟩ := mem_edits_all he
      exact ⟨t, ht, hg t ht e he⟩

section
variable (G : String) (kind : VarKind) (held : Nat → Slot)

/-- A node of which one part is edited is printed by printing the part. -/
theorem stretch_part {s : Span} {u : Tree} {text : TaggedText} {p : Published} (hs : s.start ≤ s.stop)
    (hn : u.nestedIn s) (hin : ∀ e ∈ p.edits, u.label ≠ .absent ∧ e.InsertsIn u.span)
    (hr : u.label ≠ .absent → stretch (fun i => actAll p.edits i (held i)) u.span.start u.span.stop = text) :
    stretch (fun i => actAll p.edits i (held i)) s.start s.stop = weave held (piece u text) s.start s.stop := by
  have h := @stretch_nodes [u] s.start s.stop p.edits held hs (by simp [inOrder]) (by simpa using hn)
    fun e he => ⟨u, by simp, hin e he⟩
  rw [h, List.flatMap_cons, List.flatMap_nil, List.append_nil, piece_congr hr]

mutual

/-- What its edits make of a target is what is printed for it. -/
theorem stretch_element : ∀ (t : Tree) {within : Span}, t.fits .target → t.nestedIn within → t.spreads →
    t.label ≠ .absent → stretch (fun i => actAll (publishElement G kind t).edits i (held i))
      t.span.start t.span.stop = printed G held t
  | .node label span children, within, hf, hn, hs, hl => by
    obtain ⟨-, hlt, -⟩ := nestedIn_span hl hn
    have hspan : span.start ≤ span.stop := Nat.le_of_lt hlt
    have hchild := fun u hu => nestedIn_of_mem_children (t := u) hl (nestedIn_self hl hn) hu
    simp only [Tree.fits, Tree.spreads, Bool.and_eq_true] at hf hs
    have hspreads := fun u hu => spreads_of_mem (t := u) hs.2 hu
    -- a target below is printed for what its edits make of it
    have hown : ∀ u ∈ children, u.fits .target → u.label ≠ .absent →
        stretch (fun i => actAll (publishElement G kind u).edits i (held i)) u.span.start u.span.stop =
          printed G held u := fun u hu hfu hul =>
      stretch_element u hfu (hchild u hu) (hspreads u hu) hul
    cases label with
    | name name => exact @stretch_act_prepend held span _ hlt _
    | arrayPattern =>
      have ho : inOrder children := hs.1
      have hfits := fun u hu => fits_target_of_optional (fits_of_mem (t := u) hf.2 hu)
      have h := stretch_rounds held hspan ho hchild
        (fun u hu => insertsIn_element G kind (hchild u hu)) fun u hu hul => hown u hu (hfits u hu) hul
      rw [printed, printedPieces_eq, ← h, publishElement, publishTarget, publishPattern, publishPatterns_eq_all]
      · simp only [Published.none_append, Tree.span]
      all_goals simp
    | objectPattern =>
      have ho : inOrder children := hs.1
      have h := stretch_rounds held hspan ho hchild
        (fun u hu => insertsIn_member G kind (hchild u hu)) fun u hu hul =>
          stretch_member u (fits_of_mem hf.2 hu) (hchild u hu) (hspreads u hu) hul
      rw [printed, printedPieces_eq, ← h, publishElement, publishTarget, publishPattern,
        publishPatternsOf_eq_all]
      · simp only [Published.none_append, Tree.span]
      all_goals simp
    | withDefault =>
      obtain ⟨target, value, rfl, ht, -⟩ := fitsAll_pair hf.2
      rw [publishElement_withDefault, printed]
      exact stretch_part held hspan (hchild target (by simp)) (insertsIn_element G kind (hchild target (by simp)))
        (hown target (by simp) ht)
    | rest =>
      obtain ⟨target, rfl, ht⟩ := fitsAll_singleton hf.2
      rw [publishElement_rest, printed]
      exact stretch_part held hspan (hchild target (by simp)) (insertsIn_element G kind (hchild target (by simp)))
        (hown target (by simp) ht)
    | absent => exact absurd rfl hl
    | _ => first | rfl | cases hf.1
termination_by t => sizeOf t

theorem stretch_member : ∀ (t : Tree) {within : Span}, t.fits .patternProperty → t.nestedIn within →
    t.spreads → t.label ≠ .absent → stretch (fun i => actAll (publishMember G kind t).edits i (held i))
      t.span.start t.span.stop = printed G held t
  | .node label span children, within, hf, hn, hs, hl => by
    obtain ⟨-, hlt, -⟩ := nestedIn_span hl hn
    have hspan : span.start ≤ span.stop := Nat.le_of_lt hlt
    have hchild := fun u hu => nestedIn_of_mem_children (t := u) hl (nestedIn_self hl hn) hu
    simp only [Tree.fits, Tree.spreads, Bool.and_eq_true] at hf hs
    have hown : ∀ u ∈ children, u.fits .target → u.label ≠ .absent →
        stretch (fun i => actAll (publishElement G kind u).edits i (held i)) u.span.start u.span.stop =
          printed G held u := fun u hu hfu hul =>
      stretch_element u hfu (hchild u hu) (spreads_of_mem hs.2 hu) hul
    cases label with
    | keyValue =>
      obtain ⟨key, value, rfl, -, hv⟩ := fitsAll_pair hf.2
      rw [publishMember_keyValue, printed]
      exact stretch_part held hspan (hchild value (by simp)) (insertsIn_element G kind (hchild value (by simp)))
        (hown value (by simp) hv)
    | initialized =>
      obtain ⟨target, rest, rfl, ht, -⟩ := fitsAll_of_cons hf.2
      have htl := label_ne_absent_of_fits ht rfl
      have hnested := hchild target (by simp)
      obtain ⟨-, hlt, -⟩ := nestedIn_span htl hnested
      obtain ⟨name, nameSpan, rfl⟩ := eq_name_of_fits ht
      refine stretch_part held hspan hnested (p := publishShorthand G kind nameSpan name)
        (fun e he => ⟨htl, ?_⟩) fun _ => @stretch_act_append held nameSpan _ hlt _
      rcases List.mem_singleton.mp he with rfl
      exact ⟨Nat.le_refl _, hlt, Nat.le_refl _, typedPart_inserted _⟩
    | rest =>
      obtain ⟨target, rfl, ht⟩ := fitsAll_singleton hf.2
      rw [publishMember_rest, printed]
      exact stretch_part held hspan (hchild target (by simp)) (insertsIn_element G kind (hchild target (by simp)))
        (hown target (by simp) ht)
    | _ => cases hf.1
termination_by t => sizeOf t

end

end

/-! ## Declarations -/

/-- An opening that is brought first to the whole and then to a part of it might as well have come last. -/
theorem actAll_enclose_both (s range : Span) (i : Nat) (x : Slot) :
    actAll (.prepend s (inserted "(") :: enclose range "(" ")" ++ [.append s (inserted ")")]) i x =
      actAll (enclose range "(" ")" ++ enclose s "(" ")") i x := by
  simp only [enclose, List.cons_append, List.nil_append, actAll_cons, actAll_nil]
  congr 1
  -- the two openings are the same text, and an opening and a closing do not meet
  simp only [Edit.act]
  split <;> split <;> split <;> simp

section
variable {span : Span} {target init : Tree} {p : Published} {text : TaggedText} (held : Nat → Slot)
  (hlt : span.start < span.stop) (htn : target.nestedIn span)
  (hin : ∀ e ∈ p.edits, target.label ≠ .absent ∧ e.InsertsIn target.span)
  (htext : target.label ≠ .absent →
    stretch (fun i => actAll p.edits i (held i)) target.span.start target.span.stop = text)
include hlt htn hin htext

theorem stretch_uninitialized (hi : init.label = .absent) :
    stretch (fun i => actAll (p.edits ++ declaratorEdits span init) i (held i)) span.start span.stop =
      inserted "(" ++ weave held (piece target text) span.start span.stop ++ inserted " = undefined)" := by
  have hedits : declaratorEdits span init = enclose span "(" " = undefined)" := by
    obtain ⟨label, initSpan, children⟩ := init
    cases hi
    rfl
  rw [hedits, stretch_enclose hlt, stretch_part held (Nat.le_of_lt hlt) htn hin htext]

theorem stretch_initialized (ho : inOrder [target, init]) (hin' : init.nestedIn span)
    (hi : init.label ≠ .absent) :
    stretch (fun i => actAll (p.edits ++ declaratorEdits span init) i (held i)) span.start span.stop =
      inserted "(" ++ weave held (piece target text ++ piece init
        (inserted "(" ++ stretch held init.span.start init.span.stop ++ inserted ")"))
          span.start span.stop ++ inserted ")" := by
  have hedits : declaratorEdits span init =
      .prepend span (inserted "(") :: enclose init.span "(" ")" ++ [.append span (inserted ")")] := by
    obtain ⟨label, initSpan, children⟩ := init
    cases label <;> first | rfl | exact absurd rfl hi
  obtain ⟨-, hilt, -⟩ := nestedIn_span hi hin'
  have hvalue := insertsIn_enclose (Nat.le_refl init.span.start) hilt (Nat.le_refl _) "(" ")"
  have hbefore : target.label ≠ .absent → target.span.stop ≤ init.span.start := fun htl =>
    (isBefore_iff htl hi).mp ((inOrder_cons.mp ho).1 init (by simp))
  have hall : ∀ e ∈ p.edits ++ enclose init.span "(" ")",
      ∃ t ∈ [target, init], t.label ≠ .absent ∧ e.InsertsIn t.span := by
    intro e he
    rcases List.mem_append.mp he with he | he
    · exact ⟨target, by simp, hin e he⟩
    · exact ⟨init, by simp, hi, hvalue e he⟩
  have hboth : ∀ t ∈ [target, init], t.nestedIn span := by simp [htn, hin']
  simp only [hedits, actAll_append p.edits, actAll_enclose_both]
  simp only [← actAll_append]
  rw [← List.append_assoc, stretch_enclose hlt, stretch_nodes (Nat.le_of_lt hlt) ho hboth hall,
    List.flatMap_cons, List.flatMap_cons, List.flatMap_nil, List.append_nil]
  congr 4
  · refine piece_congr fun htl => ?_
    have hout : ActLike target.span (enclose init.span "(" ")") [] :=
      actLike_nil fun e he => ⟨_, hvalue e he, .inr (hbefore htl)⟩
    rw [← htext htl]
    exact stretch_of_actLike (ActLike.append_left (fun _ _ _ _ => rfl) hout)
  · refine piece_congr fun _ => ?_
    have hout : ActLike init.span p.edits [] := actLike_nil fun e he =>
      ⟨_, (hin e he).2, .inl (hbefore (hin e he).1)⟩
    rw [stretch_of_actLike (ActLike.append_right (fun _ _ _ _ => rfl) hout)]
    exact @stretch_enclose init.span [] held hilt "(" ")"

end

section
variable (G : String) (kind : VarKind) (held : Nat → Slot) {within : Span}

theorem edits_declarator (form : DeclarationForm) (span : Span) (target init : Tree) :
    (publishDeclarator G kind form (.node .declarator span [target, init])).edits =
      (publishElement G kind target).edits ++
        if form = .statement then declaratorEdits span init else [] := rfl

theorem stretch_declarator (form : DeclarationForm) {d : Tree} (hf : d.fits .declarator)
    (hn : d.nestedIn within) (hs : d.spreads) :
    stretch (fun i => actAll (publishDeclarator G kind form d).edits i (held i)) d.span.start d.span.stop =
      printedDeclarator G held form d := by
  have hl := label_ne_absent_of_fits hf rfl
  obtain ⟨label, span, children⟩ := d
  simp only [Tree.fits, Tree.spreads, Part.allows, Bool.and_eq_true, beq_iff_eq] at hf hs
  obtain ⟨rfl, hf⟩ := hf
  have ho : inOrder children := hs.1
  have hspread := fun u hu => spreads_of_mem (t := u) hs.2 hu
  have hchild : ∀ u ∈ children, u.nestedIn span := fun u hu =>
    nestedIn_of_mem_children hl (nestedIn_self hl hn) hu
  obtain ⟨-, hlt, -⟩ : _ ∧ span.start < span.stop ∧ _ := nestedIn_span hl hn
  obtain ⟨target, init, rfl, ht, hi⟩ := fitsAll_pair hf
  have htn := hchild target (by simp)
  have hin := insertsIn_element G kind htn
  have htext := stretch_element G kind held target ht htn (hspread target (by simp))
  rw [edits_declarator]
  cases form with
  | loopHead =>
    rw [if_neg (by simp), List.append_nil, printedDeclarator]
    exact stretch_part held (Nat.le_of_lt hlt) htn hin htext
  | statement =>
    rw [if_pos rfl, printedDeclarator]
    by_cases hil : init.label = .absent
    · rw [if_pos hil, piece.eq_1 init, if_pos hil, List.append_nil]
      exact stretch_uninitialized held hlt htn hin htext hil
    · rw [if_neg hil]
      exact stretch_initialized held hlt htn hin htext ho (hchild init (by simp)) hil

/-- Behind the keyword the edits of the declarators print them. -/
theorem stretch_declarators (form : DeclarationForm) {ds : List Tree} {a b : Nat} (hab : a ≤ b)
    (hf : ∀ d ∈ ds, d.fits .declarator) (hn : ∀ d ∈ ds, d.nestedIn ⟨a, b⟩) (hs : spreadsAll ds)
    (ho : inOrder ds) :
    stretch (fun i => actAll (Published.all (publishDeclarator G kind form) ds).edits i (held i)) a b =
      weave held (printedDeclarators G held form ds) a b := by
  have hl : ∀ d ∈ ds, d.label ≠ .absent := fun d hd => label_ne_absent_of_fits (hf d hd) rfl
  have hin : ∀ d ∈ ds, ∀ e ∈ (publishDeclarator G kind form d).edits, d.label ≠ .absent ∧ e.InsertsIn d.span :=
    fun d hd e he => ⟨hl d hd, insertsIn_declarator G kind form (nestedIn_self (hl d hd) (hn d hd)) e he⟩
  rw [stretch_nodes hab ho hn, printedDeclarators]
  · congr 1
    refine List.flatMap_congr fun d hd => piece_congr fun hl => ?_
    rw [stretch_of_actLike (actLike_all hin (sideBySide_of_inOrder ho) hd hl)]
    exact stretch_declarator G kind held form (hf d hd) (hn d hd) (spreads_of_mem hs hd)
  · intro e he
    obtain ⟨d, hd, he⟩ := mem_edits_all he
    exact ⟨d, hd, hin d hd e he⟩

/-- On the span of a declaration its edits print it. -/
theorem stretch_printed {form : DeclarationForm} {span : Span} {ds : List Tree} {es : List Edit}
    {held held' : Nat → Slot} (hheld : ∀ i, held' i = actAll es i (held i))
    (hlike : ActLike span es (publishDeclaration G kind form span ds).edits)
    (hf : fitsAll (List.replicate ds.length .declarator) ds)
    (hn : (Script.Tree.node (.varDecl kind) span ds).nestedIn within)
    (hs : (Script.Tree.node (.varDecl kind) span ds).spreads) :
    stretch held' span.start span.stop = printedDeclaration G held form kind span ds := by
  simp only [Tree.spreads, Bool.and_eq_true] at hs
  have ho : inOrder ds := hs.1
  have hfd := fun d hd => fits_of_mem (t := d) hf hd
  have hl := nestedIn_declarators kind hf hn
  have hword := start_lt_word kind span
  obtain ⟨-, hlead, -, -⟩ :
      _ ∧ span.start + kind.word.utf8ByteSize < span.stop ∧ _ := nestedIn_node (by simp) hn
  cases form with
  | loopHead =>
    rw [edits_declaration, if_neg (by simp), if_neg (by simp), List.append_nil] at hlike
    rw [stretch_of_actLike_replace hheld hlike hword (Nat.le_of_lt hlead) (Nat.le_refl _)
      (Published.InsertsIn.all fun d hd => insertsIn_declarator G kind .loopHead (hl d hd).2),
      stretch_declarators G kind held .loopHead (Nat.le_of_lt hlead) hfd (fun d hd => (hl d hd).2) hs.2 ho]
    rfl
  | statement =>
    cases hlast : ds.getLast? with
    | none =>
      obtain rfl : ds = [] := List.getLast?_eq_none_iff.mp hlast
      exact stretch_of_actLike_replace hheld hlike hword (Nat.le_of_lt hlead) (Nat.le_refl _) fun e he => by
        cases he
    | some last =>
      obtain ⟨hll, hln⟩ := hl last (List.mem_of_getLast? hlast)
      obtain ⟨h1, h2, h3⟩ : span.start + kind.word.utf8ByteSize ≤ last.span.start ∧ _ ∧ _ :=
        nestedIn_span hll hln
      obtain ⟨hprinted, hkept⟩ := stretch_of_actLike_statement G kind hheld hlike hf ho hn hlast
      rw [stretch_declarators G kind held .statement (Nat.le_trans h1 (Nat.le_of_lt h2)) hfd
        (nestedIn_of_getLast? ho hlast hl) hs.2 ho] at hprinted
      rw [← stretch_append (b := last.span.stop) (by omega) h3, hprinted, hkept]
      simp [printedDeclaration, hlast]

end

/-! ## Declarations that are not published -/

mutual

/-- The braces of a block stand around its statements. -/
def Script.Tree.braced : Tree → Bool
  | .node label span children =>
    (label != .block ||
      children.all fun t => span.start < t.span.start && t.span.stop < span.stop) && bracedAll children

def Script.bracedAll : List Tree → Bool
  | [] => true
  | t :: ts => t.braced && bracedAll ts

end

/-- Statements below the node stand in the braces of a block. -/
def Script.Label.isBracing : Label → Bool
  | .block | .empty | .constructor | .field _ | .memberMethod _ => true
  | label => label.isInner

theorem Script.Label.isBracing_of_isInner {label : Label} (h : label.isInner) : label.isBracing := by
  cases label <;> first | rfl | cases h

theorem Script.isBracing_of_fits {part : Part}
    (hp : part.isInner ∨ part = .block ∨ part = .arrowBody ∨ part = .member) {t : Tree} (h : t.fits part) :
    t.label.isBracing := by
  obtain ⟨label, span, children⟩ := t
  simp only [Tree.fits, Bool.and_eq_true] at h
  rcases hp with hp | rfl | rfl | rfl
  · exact Label.isBracing_of_isInner (Part.isInner_of_allows hp h.1)
  all_goals cases label <;>
    simp_all [Part.allows, Label.isBracing, Label.isInner, Label.isExpression, Tree.label]

theorem Script.Label.parts_of_isBracing {label : Label} (h : label.isBracing) (hb : label ≠ .block)
    (count : Nat) : ∀ part ∈ label.parts count,
      part.isInner ∨ part = .block ∨ part = .arrowBody ∨ part = .member := by
  cases label <;>
    simp_all [Label.isBracing, Label.isInner, Label.parts, Part.isInner, or_imp]

theorem Script.Label.not_isDeclaration_of_isBracing {label : Label} (h : label.isBracing) :
    label.isDeclaration = false := by
  cases label <;> first | rfl | cases h

mutual

/-- A declaration below such a node is inside of it, with a brace on either side. -/
theorem inside_of_isBracing {c : Tree} (hc : c.label.isDeclaration) : ∀ (t : Tree) {part : Part}
    {within : Span}, t.fits part → t.nestedIn within → t.braced → t.label.isBracing → c ∈ t.nodes →
      t.span.start < c.span.start ∧ c.span.stop < t.span.stop
  | .node label span children, part, within, hf, hn, hb, hl, hm => by
    have hl : label.isBracing := hl
    obtain ⟨hal, -⟩ := nestedIn_of_mem_nodes (label_ne_absent hc) _ hf hn hm
    have hchild : ∀ u ∈ children, u.nestedIn span := fun u hu =>
      nestedIn_of_mem_children hal (nestedIn_self hal hn) hu
    simp only [Tree.fits, Tree.braced, Bool.and_eq_true, Bool.or_eq_true, bne_iff_ne] at hf hb
    have hm : c ∈ Tree.nodesOf children := by
      refine (List.mem_cons.mp hm).resolve_left ?_
      rintro rfl
      rw [Tree.label, Label.not_isDeclaration_of_isBracing hl] at hc
      cases hc
    by_cases hblock : label = .block
    · obtain ⟨u, hu, hmu⟩ := mem_nodesOf.mp hm
      obtain ⟨part, hfu⟩ := exists_fits_of_mem hf.2 hu
      obtain ⟨-, h1, h2⟩ := span_of_mem_nodes (label_ne_absent hc) hfu (hchild u hu) hmu
      have hbraces := hb.1.resolve_left (not_not_intro hblock)
      simp only [List.all_eq_true, Bool.and_eq_true, decide_eq_true_eq] at hbraces
      obtain ⟨h3, h4⟩ := hbraces u hu
      exact ⟨Nat.lt_of_lt_of_le h3 h1, Nat.lt_of_le_of_lt h2 h4⟩
    · exact inside_of_parts hc children hf.2 hchild hb.2 (Label.parts_of_isBracing hl hblock _) hm

theorem inside_of_parts {c : Tree} (hc : c.label.isDeclaration) : ∀ (ts : List Tree) {parts : List Part}
    {within : Span}, fitsAll parts ts → (∀ t ∈ ts, t.nestedIn within) → bracedAll ts →
      (∀ part ∈ parts, part.isInner ∨ part = .block ∨ part = .arrowBody ∨ part = .member) →
        c ∈ Tree.nodesOf ts → within.start < c.span.start ∧ c.span.stop < within.stop
  | [], _, _, _, _, _, _, hm => by cases hm
  | t :: ts, parts, within, hf, hn, hb, hp, hm => by
    obtain ⟨part, rest, rfl, hft, hfts⟩ := fitsAll_cons hf
    simp only [bracedAll, Bool.and_eq_true] at hb
    rcases List.mem_append.mp hm with hm | hm
    · have hl := isBracing_of_fits (hp part (by simp)) hft
      have h := inside_of_isBracing hc t hft (hn t (by simp)) hb.1 hl hm
      obtain ⟨ht, -⟩ := nestedIn_of_mem_nodes (label_ne_absent hc) t hft (hn t (by simp)) hm
      obtain ⟨h1, -, h3⟩ := nestedIn_span ht (hn t (by simp))
      omega
    · exact inside_of_parts hc ts hfts (fun u hu => hn u (by simp [hu])) hb.2
        (fun q hq => hp q (by simp [hq])) hm

end

theorem Script.Label.isClosed_of_opensScope {label : Label} (h : label.opensScope) : label.isClosed := by
  obtain ⟨kind, hk, hs⟩ := (Option.any_eq_true _ _).mp h
  simp [Label.isClosed, hk, hs]

mutual

/-- A declaration stands outside of functions and classes, or well inside of one. -/
theorem mem_outerNodes_or_inside {c : Tree} (hc : c.label.isDeclaration) : ∀ (t : Tree) {part : Part}
    {within : Span}, t.fits part → t.nestedIn within → t.braced → c ∈ t.nodes →
      c ∈ outerNodes t ∨ ∃ n ∈ t.nodes, n.label.isClosed ∧
        n.span.start < c.span.start ∧ c.span.stop < n.span.stop
  | .node label span children, part, within, hf, hn, hb, hm => by
    obtain ⟨hal, -⟩ := nestedIn_of_mem_nodes (label_ne_absent hc) _ hf hn hm
    rw [outerNodes]
    cases hs : label.opensScope with
    | true =>
      have hclosed := Label.isClosed_of_opensScope hs
      have hl := Label.isBracing_of_isInner (Label.isInner_of_isClosed hclosed)
      exact .inr ⟨_, List.mem_cons_self .., hclosed, inside_of_isBracing hc _ hf hn hb hl hm⟩
    | false =>
      rcases List.mem_cons.mp hm with rfl | hm
      · exact .inl (List.mem_cons_self ..)
      · simp only [Tree.fits, Tree.braced, Bool.and_eq_true] at hf hb
        refine (mem_outerNodesOf_or_inside hc children hf.2
          (fun u hu => nestedIn_of_mem_children hal hn hu) hb.2 hm).imp
          (List.mem_cons_of_mem _) fun ⟨n, hn, h⟩ => ⟨n, List.mem_cons_of_mem _ hn, h⟩

theorem mem_outerNodesOf_or_inside {c : Tree} (hc : c.label.isDeclaration) : ∀ (ts : List Tree)
    {parts : List Part} {within : Span}, fitsAll parts ts → (∀ t ∈ ts, t.nestedIn within) → bracedAll ts →
      c ∈ Tree.nodesOf ts → c ∈ outerNodesOf ts ∨ ∃ n ∈ Tree.nodesOf ts, n.label.isClosed ∧
        n.span.start < c.span.start ∧ c.span.stop < n.span.stop
  | [], _, _, _, _, _, hm => by cases hm
  | t :: ts, parts, within, hf, hn, hb, hm => by
    obtain ⟨part, rest, rfl, hft, hfts⟩ := fitsAll_cons hf
    simp only [bracedAll, Bool.and_eq_true] at hb
    rcases List.mem_append.mp hm with hm | hm
    · refine (mem_outerNodes_or_inside hc t hft (hn t (by simp)) hb.1 hm).imp
        (List.mem_append_left _) fun ⟨n, hn, h⟩ => ⟨n, List.mem_append_left _ hn, h⟩
    · refine (mem_outerNodesOf_or_inside hc ts hfts (fun u hu => hn u (by simp [hu])) hb.2 hm).imp
        (List.mem_append_right _) fun ⟨n, hn, h⟩ => ⟨n, List.mem_append_right _ hn, h⟩

end

/-- Well inside of a node that edits spare they change nothing. -/
theorem actLike_nil_of_spares {s within : Span} {es : List Edit} (h : ∀ e ∈ es, e.Spares within)
    (h1 : within.start < s.start) (h2 : s.stop < within.stop) : ActLike s es [] := by
  intro i hi hi' x
  have hout : ∀ e ∈ es, ¬e.touches i := by
    intro e he ht
    rcases h e he i (by omega) (by omega) ht with ⟨-, -, -, hstart⟩ | ⟨-, -, -, hstop⟩
    · omega
    · omega
  rw [actAll_nil]
  clear h
  induction es with
  | nil => rfl
  | cons e es ih =>
    rw [actAll_cons, Edit.act_of_not_touches (hout e (by simp))]
    exact ih fun e' he' => hout e' (by simp [he'])

/-! ## Cells -/

theorem Draft.slice_of_nestedIn {within : Span} {c : Tree} {d : Draft} (hl : c.label ≠ .absent) (hc : c.nestedIn within)
    (hd : within.stop ≤ d.size) : d.slice c.span = stretch d.held c.span.start c.span.stop := by
  obtain ⟨-, hlt, hstop⟩ := nestedIn_span hl hc
  exact Draft.slice_eq_stretch (Nat.le_of_lt hlt) (Nat.le_trans hstop hd)

section
variable (G : String) {body : List Tree} {within : Span} (hf : ∀ t ∈ body, t.fits .statement)
  (hn : ∀ t ∈ body, t.nestedIn within) (hb : sideBySide body) (hs : ∀ t ∈ body, t.spreads)
include hf hn hb hs

/-- A declaration that is not published is not edited. -/
theorem actLike_unpublished {c : Tree} (hbraced : ∀ t ∈ body, t.braced) (hc : c ∈ Tree.nodesOf body)
    (hd : c.label.isDeclaration) (hnot : c ∉ cellDeclarations body) :
    ActLike c.span ((publishBody G body).edits ++ returnEdits body) [] := by
  obtain ⟨t, ht, hm⟩ := mem_nodesOf.mp hc
  rcases mem_outerNodes_or_inside hd t (hf t ht) (hn t ht) (hbraced t ht) hm with hm | ⟨n, hm, hclosed, h1, h2⟩
  · -- outside of functions and classes only its place keeps a declaration from being published
    have hh : isHoisted c = false := by
      by_contra hh
      exact hnot (List.mem_append_left _
        (List.mem_filter.mpr ⟨mem_outerNodesOf.mpr ⟨t, ht, hm⟩, by simpa using hh⟩))
    have hl : c.label ≠ .exprStmt := by
      intro hl
      rw [hl] at hd
      cases hd
    obtain ⟨p, hlike, hp⟩ := actLike_outer G hf hn hb hs ht hm (Label.isInner_eq_false hd) hl
    have hbody : p ≠ .body := by
      rintro rfl
      obtain rfl : c = t := by simpa using hp
      exact hnot (List.mem_append_right _ (List.mem_filter.mpr ⟨ht, isLexical_of_isDeclaration hd hh⟩))
    obtain ⟨⟨part, hfc⟩, -⟩ := fits_of_mem_outerNodes t (hf t ht) (hs t ht) hm
    obtain ⟨label, span, children⟩ := c
    have hd : label.isDeclaration := hd
    simp only [Tree.fits, Bool.and_eq_true] at hfc
    rwa [publish_lexical_eq_none G hd hh hfc.2 hbody] at hlike
  · have hspares := spares_body G hf hn hb (partsApartAll_of_spreads body hs)
      (mem_nodesOf.mpr ⟨t, ht, hm⟩) hclosed
    exact actLike_nil_of_spares hspares h1 h2

/-- What edits make of the declarations of a cell: those of variables that are published are printed,
and those that are not published stay. -/
structure DeclarationsPrinted (G : String) (body : List Tree) (d d' : Draft) : Prop where
  statement : ∀ kind span ds, .node (.varDecl kind) span ds ∈ cellDeclarations body →
    (kind = .var → .node (.varDecl kind) span ds ∉ loopHeads body) →
      d'.slice span = printedDeclaration G d.held .statement kind span ds
  loopHead : ∀ span ds, .node (.varDecl .var) span ds ∈ cellDeclarations body →
    .node (.varDecl .var) span ds ∈ loopHeads body →
      d'.slice span = printedDeclaration G d.held .loopHead .var span ds
  unpublished : ∀ c ∈ Tree.nodesOf body, c.label.isDeclaration → c ∉ cellDeclarations body →
    d'.slice c.span = d.slice c.span

/-- Edits can be made in a draft that holds the cell, and rewrite its variable declarations as a printer
would that goes once through their trees. -/
theorem declarationsPrinted (hbraced : ∀ t ∈ body, t.braced) {d : Draft} (hd : within.stop ≤ d.size) :
    ∃ d', d.applyAll ((publishBody G body).edits ++ returnEdits body) = .ok d' ∧
      DeclarationsPrinted G body d d' := by
  have hin := insertsIn_body G hf hn
  obtain ⟨d', hd'⟩ := Draft.exists_applyAll_eq_ok (d := d) fun e he =>
    ⟨(hin e he).start_lt_stop, Nat.le_trans (hin e he).stop_le hd⟩
  obtain ⟨-, hsize, hheld⟩ := Draft.applyAll_eq_ok hd'
  have hslice : ∀ {c : Tree}, c ∈ cellDeclarations body →
      d'.slice c.span = stretch d'.held c.span.start c.span.stop := fun hc =>
    Draft.slice_of_nestedIn (label_ne_absent (isDeclaration_of_mem_cellDeclarations hc))
      (nestedIn_of_mem_cellDeclarations hf hn hc) (hsize ▸ hd)
  refine ⟨d', hd', ?statement, ?loopHead, ?unpublished⟩
  case statement =>
    intro kind span ds hm hhead
    obtain ⟨p, hlike, hplace, hp⟩ := actLike_cell G hf hn hb hs hm
    obtain ⟨⟨q, hq⟩, hspreads, hself⟩ := wellFormed_of_mem_cellDeclarations hf hn hs hm
    simp only [Tree.fits, Label.parts, Bool.and_eq_true] at hq
    have hk : kind = .var ∨ p = .body :=
      hplace.imp_left fun hh => by cases kind <;> first | rfl | cases hh
    have hstatement : p ≠ .eachHead := by
      rintro rfl
      exact hhead (hk.resolve_right (by simp)) (hp rfl)
    rw [publish, if_pos hk, if_neg hstatement] at hlike
    exact (hslice hm).trans (stretch_printed G kind hheld hlike hq.2 hself hspreads)
  case loopHead =>
    intro span ds hm hhead
    have hlike := actLike_loopHead G hf hn hb hs hhead (by simp [Tree.label])
    obtain ⟨⟨q, hq⟩, hspreads, hself⟩ := wellFormed_of_mem_cellDeclarations hf hn hs hm
    simp only [Tree.fits, Label.parts, Bool.and_eq_true] at hq
    rw [publish, if_pos (.inl rfl), if_pos rfl] at hlike
    exact (hslice hm).trans (stretch_printed G .var hheld hlike hq.2 hself hspreads)
  case unpublished =>
    intro c hm hdecl hnot
    have hl := label_ne_absent hdecl
    obtain ⟨t, ht, hmt⟩ := mem_nodesOf.mp hm
    have hnested := (nestedIn_of_mem_nodes hl t (hf t ht) (hn t ht) hmt).2
    rw [Draft.slice_of_nestedIn hl hnested (hsize ▸ hd), Draft.slice_of_nestedIn hl hnested hd]
    exact stretch_of_actLike_nil hheld (actLike_unpublished G hf hn hb hs hbraced hm hdecl hnot)

end

/-- `let {a, b: [c = 1]} = d, é;` -/
def patternSample : Tree :=
  .node (.varDecl .block) ⟨0, 28⟩
    [.node .declarator ⟨4, 23⟩
      [.node .objectPattern ⟨4, 19⟩
        [.node .initialized ⟨5, 6⟩ [.node (.name "a") ⟨5, 6⟩ []],
          .node .keyValue ⟨8, 18⟩ [.node (.key "b") ⟨8, 9⟩ [],
            .node .arrayPattern ⟨11, 18⟩ [.node .withDefault ⟨12, 17⟩
              [.node (.name "c") ⟨12, 13⟩ [], .node (.expr (.literal (.number "1"))) ⟨16, 17⟩ []]]]],
        .node (.reference "d") ⟨22, 23⟩ []],
      .node .declarator ⟨25, 27⟩ [.node (.name "é") ⟨25, 27⟩ [], .absent]]

def headSample : Tree :=
  .node (.varDecl .var) ⟨34, 39⟩ [.node .declarator ⟨38, 39⟩ [.node (.name "f") ⟨38, 39⟩ [], .absent]]

def innerSample : Tree :=
  .node (.varDecl .block) ⟨48, 53⟩ [.node .declarator ⟨52, 53⟩ [.node (.name "h") ⟨52, 53⟩ [], .absent]]

/-- Behind the declaration stands `for (var f of g) { let h }` in a line of its own. -/
def declaringSample : List Tree :=
  [patternSample, .node (.forOf false) ⟨29, 55⟩
    [headSample, .node (.reference "g") ⟨43, 44⟩ [], .node .block ⟨46, 55⟩ [innerSample]]]

def declaringText : TaggedText :=
  typed "let {a, b: [c = 1]} = d, é;\nfor (var f of g) { let h }" none

theorem declarationsPrinted_declaringSample : ∃ d',
    (Draft.ofText declaringText).applyAll
        ((publishBody "G" declaringSample).edits ++ returnEdits declaringSample) = .ok d' ∧
      (d'.slice ⟨0, 28⟩).text = "void ( ({a: G.a, b: [G.c = 1]} = (d)), (G.é = undefined));" ∧
      (d'.slice ⟨34, 39⟩).text = " G.f" ∧ (d'.slice ⟨48, 53⟩).text = "let h" := by
  have hf : ∀ t ∈ declaringSample, t.fits .statement := by decide
  have hn : ∀ t ∈ declaringSample, t.nestedIn ⟨0, 55⟩ := by decide
  have hd : 55 ≤ (Draft.ofText declaringText).size := by decide +kernel
  have hcell : cellDeclarations declaringSample = [headSample, patternSample] := rfl
  have hpattern : patternSample ∈ cellDeclarations declaringSample := by simp [hcell]
  have hhead : headSample ∈ cellDeclarations declaringSample := by simp [hcell]
  have hheads : headSample ∈ loopHeads declaringSample := List.mem_singleton_self headSample
  obtain ⟨d', h, hprinted⟩ := declarationsPrinted "G" hf hn (by decide) (by decide) (by decide) hd
  refine ⟨d', h, ?_, ?_, ?_⟩
  · rw [hprinted.statement .block ⟨0, 28⟩ patternSample.children hpattern (by simp)]
    decide +kernel
  · rw [hprinted.loopHead ⟨34, 39⟩ headSample.children hhead hheads]
    decide +kernel
  · have hinner : d'.slice ⟨48, 53⟩ = (Draft.ofText declaringText).slice ⟨48, 53⟩ :=
      hprinted.unpublished innerSample (by simp [declaringSample, innerSample, Tree.nodesOf, Tree.nodes]) rfl
        (by simp [hcell, innerSample, headSample, patternSample])
    rw [hinner]
    decide +kernel

end NotebookCell
