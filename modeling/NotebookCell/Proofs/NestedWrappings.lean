import NotebookCell.Proofs.Splicing
import Mathlib.Data.List.Induction

/-!
# Nested wrappings

A wrapping puts one text before a range and another one behind it. Ranges of several wrappings may
lie inside of one another, share an end or be the same, so that many texts meet in one slot. As long
as the wrapping of an inner range is made first, what the edits make is the text of a tree: every
wrapping encloses the complete text of what lies in its range. The order of the other wrappings is
of no importance, nor is it when the one text of a wrapping is put in its place and when the other.
-/

namespace NotebookCell

open TaggedText

/-- The text of the range goes between two others. -/
structure Wrapping where
  range : Span
  opening : TaggedText
  closing : TaggedText
  deriving DecidableEq, Repr

namespace Wrapping

def openingEdit (w : Wrapping) : Edit := .prepend w.range w.opening

def closingEdit (w : Wrapping) : Edit := .append w.range w.closing

def edits (w : Wrapping) : List Edit := [w.openingEdit, w.closingEdit]

end Wrapping

/-! ## Trees -/

/-- A character, or what a wrapping encloses. -/
inductive Nest where
  | char (c : TaggedChar)
  | wrapped (opening closing : TaggedText) (inside : List Nest)

mutual

/-- The text without the wrappings. -/
def Nest.bare : Nest → TaggedText
  | .char c => [c]
  | .wrapped _ _ inside => bareAll inside

def bareAll : List Nest → TaggedText
  | [] => []
  | n :: ns => n.bare ++ bareAll ns

end

mutual

/-- The text with the wrappings. -/
def Nest.rendered : Nest → TaggedText
  | .char c => [c]
  | .wrapped opening closing inside => opening ++ renderedAll inside ++ closing

def renderedAll : List Nest → TaggedText
  | [] => []
  | n :: ns => n.rendered ++ renderedAll ns

end

mutual

/-- The wrappings of what begins at a position, each one behind those inside of it. -/
def Nest.wrappings (position : Nat) : Nest → List Wrapping
  | .char _ => []
  | .wrapped opening closing inside =>
    wrappingsAll position inside ++
      [⟨⟨position, position + (bareAll inside).byteSize⟩, opening, closing⟩]

def wrappingsAll (position : Nat) : List Nest → List Wrapping
  | [] => []
  | n :: ns => n.wrappings position ++ wrappingsAll (position + n.bare.byteSize) ns

end

/-! ## Families -/

def Span.Inside (r s : Span) : Prop := s.start ≤ r.start ∧ r.stop ≤ s.stop

theorem Span.Inside.antisymm {r s : Span} (h : r.Inside s) (h' : s.Inside r) : r = s := by
  obtain ⟨a, b⟩ := r
  obtain ⟨c, d⟩ := s
  simp only [Span.Inside] at h h'
  simp only [Span.mk.injEq]
  omega

instance (r s : Span) : Decidable (r.Inside s) := inferInstanceAs (Decidable (_ ∧ _))

instance (r s : Span) : Decidable (r.Apart s) := inferInstanceAs (Decidable (_ ∨ _))

/-- The ranges are not empty, begin and end between characters, and of any two one lies inside of the
other or they are apart. -/
structure Laminar (t : TaggedText) (ws : List Wrapping) : Prop where
  nonempty : ∀ w ∈ ws, w.range.start < w.range.stop
  bounded : ∀ w ∈ ws, t.HasBoundary w.range.start ∧ t.HasBoundary w.range.stop
  nested : ws.Pairwise fun v w =>
    v.range.Inside w.range ∨ w.range.Inside v.range ∨ v.range.Apart w.range

/-- No wrapping comes behind one whose range is larger and has its own range inside. -/
def InnerFirst (ws : List Wrapping) : Prop :=
  ws.Pairwise fun v w => w.range.Inside v.range → w.range = v.range

instance (ws : List Wrapping) : Decidable (InnerFirst ws) :=
  inferInstanceAs (Decidable (List.Pairwise _ _))

/-- The same wrappings; those of one range are in the same order. -/
def SameWrappings (vs ws : List Wrapping) : Prop :=
  ∀ range : Span, (vs.filter fun v => v.range = range) = ws.filter fun w => w.range = range

def Edit.isPrepend : Edit → Bool
  | .prepend _ _ => true
  | _ => false

/-- The edits of the wrappings, for openings and for closings in some order in which an inner one
comes first. -/
structure Wraps (ws : List Wrapping) (es : List Edit) : Prop where
  openings : ∃ vs, SameWrappings vs ws ∧ InnerFirst vs ∧
    es.filter Edit.isPrepend = vs.map Wrapping.openingEdit
  closings : ∃ vs, SameWrappings vs ws ∧ InnerFirst vs ∧
    (es.filter fun e => !e.isPrepend) = vs.map Wrapping.closingEdit

section
variable {t : TaggedText} {vs ws : List Wrapping} {es : List Edit}

theorem SameWrappings.mem_iff (h : SameWrappings vs ws) {w : Wrapping} : w ∈ vs ↔ w ∈ ws := by
  have hfilter := congrArg (w ∈ ·) (h w.range)
  simpa using hfilter

theorem wraps_edits (hs : SameWrappings vs ws) (hv : InnerFirst vs) :
    Wraps ws (vs.flatMap Wrapping.edits) := by
  refine ⟨⟨vs, hs, hv, ?_⟩, vs, hs, hv, ?_⟩
  · rw [List.filter_flatMap, List.map_eq_flatMap]
    rfl
  · rw [List.filter_flatMap, List.map_eq_flatMap]
    rfl

theorem Laminar.inside_or_apart (h : Laminar t ws) (hs : SameWrappings vs ws) (hv : InnerFirst vs) :
    vs.Pairwise fun v w => v.range.Inside w.range ∨ v.range.Apart w.range := by
  refine hv.imp_of_mem fun {v w} hmem hmem' hfirst => ?_
  have hrefl : ∀ r : Span, r.Inside r := fun r => ⟨Nat.le_refl _, Nat.le_refl _⟩
  have hsymm : Std.Symm fun v w : Wrapping =>
      v.range.Inside w.range ∨ w.range.Inside v.range ∨ v.range.Apart w.range :=
    ⟨fun v w h => by
      rcases h with h | h | h
      · exact .inr (.inl h)
      · exact .inl h
      · exact .inr (.inr h.symm)⟩
  by_cases heq : v = w
  · exact .inl (heq ▸ hrefl v.range)
  rcases h.nested.forall (hs.mem_iff.mp hmem) (hs.mem_iff.mp hmem') heq with hin | hin | hapart
  · exact .inl hin
  · exact .inl (hfirst hin ▸ hrefl v.range)
  · exact .inr hapart

/-! ## What meets in a slot -/

/-- The openings of the ranges that start with a slot, the last one first. -/
def openingsAt (i : Nat) (ws : List Wrapping) : TaggedText :=
  (ws.filter fun w => w.range.start = i).reverse.flatMap Wrapping.opening

/-- The closings of the ranges that end with a slot. -/
def closingsAt (i : Nat) (ws : List Wrapping) : TaggedText :=
  (ws.filter fun w => w.range.stop = i + 1).flatMap Wrapping.closing

theorem actAll_eq_openingsAt_closingsAt {us : List Wrapping}
    (ho : es.filter Edit.isPrepend = vs.map Wrapping.openingEdit)
    (hc : (es.filter fun e => !e.isPrepend) = us.map Wrapping.closingEdit) (i : Nat) (s : Slot) :
    actAll es i s = openingsAt i vs ++ s ++ closingsAt i us := by
  induction es generalizing vs us s with
  | nil =>
    have hv : vs = [] := by simpa using ho.symm
    have hu : us = [] := by simpa using hc.symm
    simp [hv, hu, openingsAt, closingsAt]
  | cons e es ih =>
    by_cases he : e.isPrepend
    · simp only [List.filter_cons, he, if_true] at ho
      simp only [List.filter_cons, he, Bool.not_true, Bool.false_eq_true, if_false] at hc
      obtain ⟨v, vs, rfl, rfl, ho'⟩ := List.map_eq_cons_iff.mp ho.symm
      rw [actAll_cons, ih ho'.symm hc]
      by_cases hi : v.range.start = i
      · simp [Wrapping.openingEdit, Edit.act, openingsAt, hi]
      · simp [Wrapping.openingEdit, Edit.act, openingsAt, hi, Ne.symm hi]
    · simp only [List.filter_cons, he, Bool.not_false, if_true] at ho hc
      obtain ⟨u, us, rfl, rfl, hc'⟩ := List.map_eq_cons_iff.mp hc.symm
      rw [actAll_cons, ih ho hc'.symm]
      by_cases hi : u.range.stop = i + 1
      · simp [Wrapping.closingEdit, Edit.act, closingsAt, hi]
      · simp [Wrapping.closingEdit, Edit.act, closingsAt, hi, Ne.symm hi]

/-! ## Order -/

/-- Wrappings in growing ranges are determined by those of each range. -/
theorem eq_of_sameWrappings (hv : vs.Pairwise fun v w => v.range.Inside w.range)
    (hw : ws.Pairwise fun v w => v.range.Inside w.range) (h : SameWrappings vs ws) : vs = ws := by
  induction vs generalizing ws with
  | nil => exact (List.eq_nil_iff_forall_not_mem.mpr fun w hw => by simpa using h.mem_iff.mpr hw).symm
  | cons v vs ih =>
    cases ws with
    | nil => simpa using h.mem_iff.mp List.mem_cons_self
    | cons w ws =>
      rw [List.pairwise_cons] at hv hw
      -- each of the two first ranges lies inside of the other
      have hrange : v.range = w.range := by
        rcases List.mem_cons.mp (h.mem_iff.mp (List.mem_cons_self (a := v))) with rfl | hmem
        · rfl
        rcases List.mem_cons.mp (h.mem_iff.mpr (List.mem_cons_self (a := w))) with rfl | hmem'
        · rfl
        exact Span.Inside.antisymm (hv.1 w hmem') (hw.1 v hmem)
      have hhead := h w.range
      simp only [List.filter_cons, hrange, decide_true, if_true, List.cons.injEq] at hhead
      obtain ⟨rfl, -⟩ := hhead
      congr 1
      apply ih hv.2 hw.2
      intro range
      have hr := h range
      by_cases heq : v.range = range
      · simpa [List.filter_cons, heq] using hr
      · simpa [List.filter_cons, heq] using hr

/-- Of wrappings that meet there is one order only in which an inner one comes first. -/
theorem filter_eq_of_sameWrappings (h : Laminar t ws) (hw : InnerFirst ws) (hs : SameWrappings vs ws)
    (hv : InnerFirst vs) {p : Wrapping → Bool}
    (hp : ∀ v ∈ ws, ∀ w ∈ ws, p v → p w → ¬v.range.Apart w.range) : vs.filter p = ws.filter p := by
  have hinside : ∀ us, SameWrappings us ws → InnerFirst us →
      (us.filter p).Pairwise fun v w => v.range.Inside w.range := by
    intro us hus hfirst
    refine ((h.inside_or_apart hus hfirst).filter p).imp_of_mem fun {v w} hmem hmem' hor => ?_
    rw [List.mem_filter] at hmem hmem'
    have hmeet := hp v (hus.mem_iff.mp hmem.1) w (hus.mem_iff.mp hmem'.1) hmem.2 hmem'.2
    exact hor.resolve_right hmeet
  apply eq_of_sameWrappings (hinside vs hs hv) (hinside ws (fun _ => rfl) hw)
  intro range
  rw [List.filter_comm, hs range, List.filter_comm]

theorem Laminar.not_apart (h : Laminar t ws) {v w : Wrapping} (hv : v ∈ ws) (hw : w ∈ ws)
    (hshared : v.range.start = w.range.start ∨ v.range.stop = w.range.stop) :
    ¬v.range.Apart w.range := by
  have := h.nonempty v hv
  have := h.nonempty w hw
  unfold Span.Apart
  omega

/-- Whatever the order of the edits is, each slot comes to hold the same text. -/
theorem Wraps.actAll_eq (hes : Wraps ws es) (h : Laminar t ws) (hw : InnerFirst ws) (i : Nat)
    (s : Slot) :
    actAll es i s = openingsAt i ws ++ s ++ closingsAt i ws := by
  obtain ⟨⟨vs, hsv, hv, ho⟩, us, hsu, hu, hc⟩ := hes
  rw [actAll_eq_openingsAt_closingsAt ho hc, openingsAt, openingsAt, closingsAt, closingsAt,
    filter_eq_of_sameWrappings h hw hsv hv, filter_eq_of_sameWrappings h hw hsu hu]
  · intro v hvm w hwm hvs hws
    have hstop := (of_decide_eq_true hvs).trans (of_decide_eq_true hws).symm
    exact h.not_apart hvm hwm (.inr hstop)
  · intro v hvm w hwm hvs hws
    have hstart := (of_decide_eq_true hvs).trans (of_decide_eq_true hws).symm
    exact h.not_apart hvm hwm (.inl hstart)

end

/-! ## Trees side by side -/

@[simp] theorem bareAll_append (ns ms : List Nest) : bareAll (ns ++ ms) = bareAll ns ++ bareAll ms := by
  induction ns with
  | nil => rfl
  | cons n ns ih => simp [bareAll, ih]

@[simp] theorem wrappingsAll_append (position : Nat) (ns ms : List Nest) :
    wrappingsAll position (ns ++ ms) =
      wrappingsAll position ns ++ wrappingsAll (position + (bareAll ns).byteSize) ms := by
  induction ns generalizing position with
  | nil => rfl
  | cons n ns ih => simp [wrappingsAll, bareAll, ih, Nat.add_assoc]

mutual

theorem Nest.bounds_of_mem {w : Wrapping} {position : Nat} : ∀ {n : Nest},
    w ∈ n.wrappings position →
      position ≤ w.range.start ∧ w.range.stop ≤ position + n.bare.byteSize
  | .char _, h => by simp [Nest.wrappings] at h
  | .wrapped opening closing inside, h => by
    rw [Nest.wrappings, List.mem_append, List.mem_singleton] at h
    rcases h with h | rfl
    · exact bounds_of_mem_wrappingsAll h
    · exact ⟨Nat.le_refl _, Nat.le_refl _⟩

theorem bounds_of_mem_wrappingsAll {w : Wrapping} {position : Nat} : ∀ {ns : List Nest},
    w ∈ wrappingsAll position ns →
      position ≤ w.range.start ∧ w.range.stop ≤ position + (bareAll ns).byteSize
  | [], h => by simp [wrappingsAll] at h
  | n :: ns, h => by
    rw [wrappingsAll, List.mem_append] at h
    rw [bareAll, byteSize_append]
    rcases h with h | h
    · have := Nest.bounds_of_mem h
      omega
    · have := bounds_of_mem_wrappingsAll h
      omega

end

mutual

theorem Nest.innerFirst_wrappings {position : Nat} : ∀ {n : Nest},
    (∀ w ∈ n.wrappings position, w.range.start < w.range.stop) → InnerFirst (n.wrappings position)
  | .char _, _ => List.Pairwise.nil
  | .wrapped opening closing inside, h => by
    simp only [Nest.wrappings, List.mem_append, List.mem_singleton] at h ⊢
    refine List.pairwise_append.mpr
      ⟨innerFirst_wrappingsAll fun w hw => h w (.inl hw), List.pairwise_singleton .., ?_⟩
    rintro v hv w hw hinside
    rw [List.mem_singleton] at hw
    subst hw
    exact Span.Inside.antisymm hinside (bounds_of_mem_wrappingsAll hv)

theorem innerFirst_wrappingsAll {position : Nat} : ∀ {ns : List Nest},
    (∀ w ∈ wrappingsAll position ns, w.range.start < w.range.stop) →
      InnerFirst (wrappingsAll position ns)
  | [], _ => List.Pairwise.nil
  | n :: ns, h => by
    simp only [wrappingsAll, List.mem_append] at h ⊢
    refine List.pairwise_append.mpr
      ⟨Nest.innerFirst_wrappings fun w hw => h w (.inl hw),
        innerFirst_wrappingsAll fun w hw => h w (.inr hw), ?_⟩
    intro v hv w hw hinside
    have hv := Nest.bounds_of_mem hv
    have hnonempty := h w (.inr hw)
    have hw := bounds_of_mem_wrappingsAll hw
    unfold Span.Inside at hinside
    omega

end

theorem actAll_edits_of_outside {ws : List Wrapping} {i : Nat}
    (h : ∀ w ∈ ws, w.range.start < w.range.stop ∧ (i < w.range.start ∨ w.range.stop ≤ i)) (s : Slot) :
    actAll (ws.flatMap Wrapping.edits) i s = s := by
  apply actAll_of_outside
  intro e he
  simp only [List.mem_flatMap, Wrapping.edits, List.mem_cons, List.not_mem_nil, or_false] at he
  obtain ⟨w, hw, rfl | rfl⟩ := he
  · exact h w hw
  · exact h w hw

mutual

/-- The wrappings of a tree, each one made behind those inside of it, bring its text about. -/
theorem Nest.stretch_edits_eq_rendered {t : TaggedText} : ∀ (n : Nest) (s u : TaggedText),
    t = s ++ n.bare ++ u → (∀ w ∈ n.wrappings s.byteSize, w.range.start < w.range.stop) →
      stretch (fun i => actAll ((n.wrappings s.byteSize).flatMap Wrapping.edits) i
        ((Draft.ofText t).held i)) s.byteSize (s.byteSize + n.bare.byteSize) = n.rendered
  | .char c, s, u, ht, _ => by
    have hpiece := stretch_ofText_piece s [c] u
    rw [ht]
    exact hpiece
  | .wrapped opening closing inside, s, u, ht, h => by
    simp only [Nest.wrappings, List.mem_append, List.mem_singleton] at h
    have hinside := stretch_edits_eq_renderedAll inside s u ht fun w hw => h w (.inl hw)
    have hn := h _ (.inr rfl)
    simp only [Nest.wrappings, Nest.bare, Nest.rendered, List.flatMap_append, actAll_append]
    rw [← hinside, ← stretch_act_prepend hn opening, ← stretch_act_append hn closing]
    rfl

theorem stretch_edits_eq_renderedAll {t : TaggedText} : ∀ (ns : List Nest) (s u : TaggedText),
    t = s ++ bareAll ns ++ u → (∀ w ∈ wrappingsAll s.byteSize ns, w.range.start < w.range.stop) →
      stretch (fun i => actAll ((wrappingsAll s.byteSize ns).flatMap Wrapping.edits) i
        ((Draft.ofText t).held i)) s.byteSize (s.byteSize + (bareAll ns).byteSize) = renderedAll ns
  | [], s, _, _, _ => stretch_self _ _
  | n :: ns, s, u, ht, h => by
    simp only [wrappingsAll, List.mem_append] at h
    rw [bareAll] at ht
    have hfirst := Nest.stretch_edits_eq_rendered (t := t) n s (bareAll ns ++ u) (by simp [ht])
      fun w hw => h w (.inl hw)
    have hrest := stretch_edits_eq_renderedAll (t := t) ns (s ++ n.bare) u (by simp [ht])
      fun w hw => by
        rw [byteSize_append] at hw
        exact h w (.inr hw)
    simp only [wrappingsAll, bareAll, renderedAll, List.flatMap_append, actAll_append]
    rw [byteSize_append] at hrest ⊢
    rw [← hfirst, ← hrest, ← Nat.add_assoc, ← stretch_append (b := s.byteSize + n.bare.byteSize)
      (Nat.le_add_right _ _) (Nat.le_add_right _ _)]
    -- neither of the two families has a range that reaches into the stretch of the other
    congr 1
    · apply stretch_congr
      intro i _ hi
      apply actAll_edits_of_outside
      intro w hw
      have := bounds_of_mem_wrappingsAll hw
      exact ⟨h w (.inr hw), .inl (by omega)⟩
    · apply stretch_congr
      intro i hi _
      have hout : ∀ w ∈ n.wrappings s.byteSize, w.range.start < w.range.stop ∧
          (i < w.range.start ∨ w.range.stop ≤ i) := by
        intro w hw
        have := Nest.bounds_of_mem hw
        exact ⟨h w (.inl hw), .inr (by omega)⟩
      rw [actAll_edits_of_outside hout]

end

/-! ## The tree of a family -/

theorem bareAll_chars (t : TaggedText) : bareAll (t.map .char) = t := by
  induction t with
  | nil => rfl
  | cons c t ih => simp [bareAll, Nest.bare, ih]

theorem wrappingsAll_chars (t : TaggedText) (position : Nat) :
    wrappingsAll position (t.map .char) = [] := by
  induction t generalizing position with
  | nil => rfl
  | cons c t ih => simp [wrappingsAll, Nest.wrappings, ih]

/-- Trees side by side fall apart between two characters unless a wrapping reaches over the place. -/
theorem exists_append_of_hasBoundary (position : Nat) {ns : List Nest} {n : Nat}
    (hb : (bareAll ns).HasBoundary n)
    (hout : ∀ w ∈ wrappingsAll position ns,
      position + n ≤ w.range.start ∨ w.range.stop ≤ position + n) :
    ∃ ls rs, ns = ls ++ rs ∧ (bareAll ls).byteSize = n := by
  induction ns generalizing position n with
  | nil =>
    have hn := byteSize_le_of_hasBoundary hb
    exact ⟨[], [], rfl, (Nat.le_zero.mp hn).symm⟩
  | cons m ns ih =>
    by_cases hzero : n = 0
    · exact ⟨[], m :: ns, rfl, hzero.symm⟩
    have hle : m.bare.byteSize ≤ n := by
      cases m with
      | char c =>
        obtain ⟨before, after, heq, rfl⟩ := hb
        cases before with
        | nil => exact absurd rfl hzero
        | cons c' before =>
          obtain ⟨rfl, -⟩ := List.cons.inj heq
          simp [Nest.bare, byteSize, chars]
      | wrapped opening closing inside =>
        have hw := hout ⟨⟨position, position + (bareAll inside).byteSize⟩, opening, closing⟩
          (by simp [wrappingsAll, Nest.wrappings])
        simp only at hw
        rw [Nest.bare]
        omega
    obtain ⟨before, after, heq, hn⟩ := exists_of_hasBoundary hb hle
    have hrest : (bareAll ns).HasBoundary before.byteSize := ⟨before, after, heq, rfl⟩
    obtain ⟨ls, rs, rfl, hl⟩ := ih (position + m.bare.byteSize) hrest fun w hw => by
      have := hout w (by simp [wrappingsAll, hw])
      omega
    refine ⟨m :: ls, rs, rfl, ?_⟩
    rw [bareAll, byteSize_append, hl, hn]

/-- Trees side by side are those before, in and behind a range that no wrapping crosses. -/
theorem exists_around {ns : List Nest} {range : Span} (hr : range.start ≤ range.stop)
    (hstart : (bareAll ns).HasBoundary range.start) (hstop : (bareAll ns).HasBoundary range.stop)
    (hns : ∀ v ∈ wrappingsAll 0 ns,
      v.range.start < v.range.stop ∧ (v.range.Inside range ∨ v.range.Apart range)) :
    ∃ ls ms rs, ns = ls ++ ms ++ rs ∧ range.start = (bareAll ls).byteSize ∧
      range.stop = range.start + (bareAll ms).byteSize := by
  obtain ⟨ls, rest, rfl, hl⟩ := exists_append_of_hasBoundary 0 hstart fun v hv => by
    have := hns v hv
    unfold Span.Inside Span.Apart at this
    omega
  rw [bareAll_append] at hstop
  obtain ⟨middle, after, hm, hsize⟩ := exists_of_hasBoundary hstop (by omega)
  have hmiddle : (bareAll rest).HasBoundary middle.byteSize := ⟨middle, after, hm, rfl⟩
  obtain ⟨ms, rs, rfl, hms⟩ := exists_append_of_hasBoundary range.start hmiddle fun v hv => by
    have := hns v (by simp [hl, hv])
    unfold Span.Inside Span.Apart at this
    omega
  exact ⟨ls, ms, rs, (List.append_assoc ..).symm, hl.symm, by omega⟩

section
variable {t : TaggedText} {ws : List Wrapping}

theorem SameWrappings.wrap {w : Wrapping} {ls ms rs : List Nest}
    (h : SameWrappings (wrappingsAll 0 (ls ++ ms ++ rs)) ws) (hn : w.range.start < w.range.stop)
    (hstart : w.range.start = (bareAll ls).byteSize)
    (hstop : w.range.stop = w.range.start + (bareAll ms).byteSize) :
    SameWrappings (wrappingsAll 0 (ls ++ [.wrapped w.opening w.closing ms] ++ rs)) (ws ++ [w]) := by
  have hnew : wrappingsAll w.range.start [.wrapped w.opening w.closing ms] =
      wrappingsAll w.range.start ms ++ [w] := by
    simp [wrappingsAll, Nest.wrappings, ← hstop]
  have hbare : bareAll [.wrapped w.opening w.closing ms] = bareAll ms := by
    simp [bareAll, Nest.bare]
  intro range
  have hrange := h range
  simp only [wrappingsAll_append, bareAll_append, byteSize_append, Nat.zero_add, ← hstart,
    ← hstop, List.filter_append] at hrange ⊢
  rw [hbare, ← hstop, hnew, List.filter_append, ← hrange]
  by_cases heq : w.range = range
  · -- what comes behind the range has wrappings of other ranges only
    have hnone : ((wrappingsAll w.range.stop rs).filter fun v => v.range = range) = [] := by
      rw [List.filter_eq_nil_iff]
      intro v hv hv'
      have hle := (bounds_of_mem_wrappingsAll hv).1
      rw [of_decide_eq_true hv', ← heq] at hle
      omega
    simp [hnone]
  · simp [heq]

/-- The wrapping that comes last crosses none of those before it, so the trees in its range become
one. -/
theorem exists_nest (h : Laminar t ws) (hw : InnerFirst ws) :
    ∃ ns, bareAll ns = t ∧ SameWrappings (wrappingsAll 0 ns) ws := by
  induction ws using List.reverseRecOn with
  | nil =>
    refine ⟨t.map .char, bareAll_chars t, fun range => ?_⟩
    rw [wrappingsAll_chars]
  | append_singleton ws w ih =>
    have hsides := (List.pairwise_append.mp (h.inside_or_apart (fun _ => rfl) hw)).2.2
    have hn := h.nonempty w (by simp)
    obtain ⟨hstart, hstop⟩ := h.bounded w (by simp)
    have h : Laminar t ws :=
      ⟨fun v hv => h.nonempty v (by simp [hv]), fun v hv => h.bounded v (by simp [hv]),
        (List.pairwise_append.mp h.nested).1⟩
    obtain ⟨ns, rfl, hsame⟩ := ih h (List.pairwise_append.mp hw).1
    obtain ⟨ls, ms, rs, rfl, hl, hm⟩ := exists_around (Nat.le_of_lt hn) hstart hstop fun v hv => by
      have hmem := hsame.mem_iff.mp hv
      exact ⟨h.nonempty v hmem, hsides v hmem w (by simp)⟩
    refine ⟨ls ++ [.wrapped w.opening w.closing ms] ++ rs, ?_, hsame.wrap hn hl hm⟩
    simp [bareAll, Nest.bare]

theorem Wraps.range_of_mem {es : List Edit} (hes : Wraps ws es) {e : Edit} (he : e ∈ es) :
    ∃ w ∈ ws, e.range = w.range := by
  obtain ⟨⟨vs, hsv, -, ho⟩, us, hsu, -, hc⟩ := hes
  by_cases hp : e.isPrepend
  · have hmem : e ∈ es.filter Edit.isPrepend := by simp [he, hp]
    rw [ho, List.mem_map] at hmem
    obtain ⟨v, hv, rfl⟩ := hmem
    exact ⟨v, hsv.mem_iff.mp hv, rfl⟩
  · have hmem : e ∈ es.filter fun e => !e.isPrepend := by simp [he, hp]
    rw [hc, List.mem_map] at hmem
    obtain ⟨u, hu, rfl⟩ := hmem
    exact ⟨u, hsu.mem_iff.mp hu, rfl⟩

/-- One draft comes of all orders of the edits. -/
theorem exists_applyAll_wraps (h : Laminar t ws) (hw : InnerFirst ws) :
    ∃ d, (∀ es, Wraps ws es → (Draft.ofText t).applyAll es = .ok d) ∧ d.size = t.byteSize ∧
      ∀ es, Wraps ws es → ∀ i, d.held i = actAll es i ((Draft.ofText t).held i) := by
  have hok : ∀ es, Wraps ws es → ∃ d, (Draft.ofText t).applyAll es = .ok d := by
    intro es hes
    apply Draft.exists_applyAll_eq_ok
    intro e he
    obtain ⟨w, hmem, hrange⟩ := hes.range_of_mem he
    rw [hrange, Draft.size_ofText]
    exact ⟨h.nonempty w hmem, byteSize_le_of_hasBoundary (h.bounded w hmem).2⟩
  obtain ⟨d, hd⟩ := hok _ (wraps_edits (fun _ => rfl) hw)
  obtain ⟨-, hsize, hheld⟩ := Draft.applyAll_eq_ok hd
  have hslots : ∀ es, Wraps ws es → ∀ i, d.held i = actAll es i ((Draft.ofText t).held i) := by
    intro es hes i
    rw [hheld, hes.actAll_eq h hw, (wraps_edits (fun _ => rfl) hw).actAll_eq h hw]
  refine ⟨d, fun es hes => ?_, hsize.trans (Draft.size_ofText t), hslots⟩
  obtain ⟨d', hd'⟩ := hok es hes
  obtain ⟨-, hsize', hheld'⟩ := Draft.applyAll_eq_ok hd'
  rw [hd', Draft.eq_of_held (hsize'.trans hsize.symm)]
  intro i
  rw [hheld', hslots es hes]

/-- The edits of nested wrappings, inner ones first, can be made in any order and make one draft of a
text. There is a tree with these wrappings over the text, and the text of the draft is that of the
tree. -/
theorem exists_nest_source_eq (h : Laminar t ws) (hw : InnerFirst ws) :
    ∃ d, (Draft.ofText t).applyAll (ws.flatMap Wrapping.edits) = .ok d ∧
      (∀ es, Wraps ws es → (Draft.ofText t).applyAll es = .ok d) ∧
      (∃ ns, bareAll ns = t ∧ SameWrappings (wrappingsAll 0 ns) ws) ∧
      ∀ ns, bareAll ns = t → SameWrappings (wrappingsAll 0 ns) ws → d.source = renderedAll ns := by
  obtain ⟨d, hd, hsize, hheld⟩ := exists_applyAll_wraps h hw
  refine ⟨d, hd _ (wraps_edits (fun _ => rfl) hw), hd, exists_nest h hw, ?_⟩
  rintro ns rfl hsame
  have hnonempty : ∀ w ∈ wrappingsAll 0 ns, w.range.start < w.range.stop :=
    fun w hmem => h.nonempty w (hsame.mem_iff.mp hmem)
  -- the order in which the tree lists its wrappings is one of those that are allowed
  have hes := wraps_edits hsame (innerFirst_wrappingsAll hnonempty)
  have hrendered := stretch_edits_eq_renderedAll (t := bareAll ns) ns [] [] (by simp) hnonempty
  rw [Draft.source_eq_stretch, hsize, ← hrendered]
  simp only [byteSize, chars, List.map_nil, byteLength_nil, Nat.zero_add]
  exact stretch_congr fun i _ _ => hheld _ hes i

end

/-- A name, its value, and both of them twice: three ranges start with one slot and three end with
another one. -/
def sampleWrappings : List Wrapping :=
  [⟨⟨0, 2⟩, inserted "(G.", inserted ")"⟩, ⟨⟨3, 4⟩, inserted "(", inserted ")"⟩,
    ⟨⟨0, 4⟩, inserted "(", inserted ")"⟩, ⟨⟨0, 4⟩, inserted "void ", inserted ";"⟩]

theorem source_sampleWrappings :
    Laminar (typed "é=1" none) sampleWrappings ∧ InnerFirst sampleWrappings ∧
      ∃ d ns, (Draft.ofText (typed "é=1" none)).applyAll
          (sampleWrappings.flatMap Wrapping.edits) = .ok d ∧
        bareAll ns = typed "é=1" none ∧ SameWrappings (wrappingsAll 0 ns) sampleWrappings ∧
        d.source = renderedAll ns ∧ d.text = "void ((G.é)=(1));" := by
  have hlaminar : Laminar (typed "é=1" none) sampleWrappings := by
    constructor
    · decide
    · have h0 : (typed "é=1" none).HasBoundary 0 := ⟨[], _, rfl, rfl⟩
      have h2 : (typed "é=1" none).HasBoundary 2 := ⟨typed "é" none, _, rfl, rfl⟩
      have h3 : (typed "é=1" none).HasBoundary 3 := ⟨typed "é=" none, _, rfl, rfl⟩
      have h4 : (typed "é=1" none).HasBoundary 4 := ⟨typed "é=1" none, [], rfl, rfl⟩
      simp [sampleWrappings, h0, h2, h3, h4]
    · decide
  have hfirst : InnerFirst sampleWrappings := by decide
  obtain ⟨d, hd, -, ⟨ns, hns, hsame⟩, hsource⟩ := exists_nest_source_eq hlaminar hfirst
  refine ⟨hlaminar, hfirst, d, ns, hd, hns, hsame, hsource ns hns hsame, ?_⟩
  have htext : ((Draft.ofText (typed "é=1" none)).applyAll
      (sampleWrappings.flatMap Wrapping.edits)).toOption.map Draft.text =
      some "void ((G.é)=(1));" := by
    decide +kernel
  rw [hd] at htext
  simpa [Except.toOption] using htext

end NotebookCell
