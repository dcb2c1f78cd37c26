import NotebookCell.Proofs.Slots
import Mathlib.Data.List.Pairwise
import Mathlib.Data.List.Perm.Basic

/-!
# Edits as splices

A text can be edited without slots: cut it at the ends of the edited ranges, exchange or extend the
segments in between, and glue the pieces together. Edits of a draft do the same where their ranges
have no position in common and begin and end between characters, and then their order is of no
importance.
-/

namespace NotebookCell

open TaggedText

/-! ## Cutting and gluing -/

namespace TaggedText

/-- The first bytes of a text, as whole characters, and the rest. -/
def splitAtByte (n : Nat) : TaggedText → TaggedText × TaggedText
  | [] => ([], [])
  | c :: t =>
    if n = 0 then ([], c :: t)
    else
      let (s, u) := splitAtByte (n - c.char.utf8Size) t
      (c :: s, u)

/-- The position is that of a character, or the end. -/
def HasBoundary (t : TaggedText) (n : Nat) : Prop :=
  ∃ before after : TaggedText, t = before ++ after ∧ before.byteSize = n

end TaggedText

/-- What an edit of a segment puts in its place. -/
def Edit.render (segment : TaggedText) : Edit → TaggedText
  | .replace _ text => text
  | .prepend _ text => text ++ segment
  | .append _ text => segment ++ text

/-- The edited rest of a text behind a position, for edits in the order of their ranges. -/
def spliceFrom (position : Nat) : List Edit → TaggedText → TaggedText
  | [], t => t
  | e :: es, t =>
    let (before, rest) := splitAtByte (e.range.start - position) t
    let (segment, rest) := splitAtByte (e.range.stop - e.range.start) rest
    before ++ e.render segment ++ spliceFrom e.range.stop es rest

def startsFirst (e f : Edit) : Bool := e.range.start ≤ f.range.start

def splice (es : List Edit) (t : TaggedText) : TaggedText := spliceFrom 0 (es.mergeSort startsFirst) t

def Span.Apart (r s : Span) : Prop := r.stop ≤ s.start ∨ s.stop ≤ r.start

/-- The ranges lie in the text, begin and end between characters, and no two of them overlap. -/
structure Separate (t : TaggedText) (es : List Edit) : Prop where
  nonempty : ∀ e ∈ es, e.range.start < e.range.stop
  bounded : ∀ e ∈ es, t.HasBoundary e.range.start ∧ t.HasBoundary e.range.stop
  apart : es.Pairwise fun e f => e.range.Apart f.range

theorem Span.Apart.symm {r s : Span} (h : r.Apart s) : s.Apart r := Or.symm h

section
variable {t : TaggedText} {es fs : List Edit}

theorem Separate.perm (h : Separate t es) (hp : fs.Perm es) : Separate t fs where
  nonempty e he := h.nonempty e (hp.mem_iff.mp he)
  bounded e he := h.bounded e (hp.mem_iff.mp he)
  apart := (hp.pairwise_iff Span.Apart.symm).mpr h.apart

theorem byteSize_le_of_hasBoundary {n : Nat} (h : t.HasBoundary n) : n ≤ t.byteSize := by
  obtain ⟨before, after, rfl, rfl⟩ := h
  simp

/-! ## Order -/

theorem Edit.act_comm {e f : Edit} (he : e.range.start < e.range.stop) (hf : f.range.start < f.range.stop)
    (h : e.range.Apart f.range) (i : Nat) (s : Slot) : e.act i (f.act i s) = f.act i (e.act i s) := by
  by_cases hi : i < e.range.start ∨ e.range.stop ≤ i
  · rw [Edit.act_of_outside he hi, Edit.act_of_outside he hi]
  · have hi' : i < f.range.start ∨ f.range.stop ≤ i := by
      unfold Span.Apart at h
      omega
    rw [Edit.act_of_outside hf hi', Edit.act_of_outside hf hi']

theorem actAll_perm (h : Separate t es) (hp : fs.Perm es) (i : Nat) (s : Slot) :
    actAll fs i s = actAll es i s := by
  have hcomm : ∀ e ∈ es, ∀ f ∈ es, ∀ s : Slot, e.act i (f.act i s) = f.act i (e.act i s) := by
    intro e he f hf s
    by_cases heq : e = f
    · rw [heq]
    · have : Std.Symm fun e f : Edit => e.range.Apart f.range := ⟨fun _ _ => Span.Apart.symm⟩
      exact Edit.act_comm (h.nonempty e he) (h.nonempty f hf) (h.apart.forall he hf heq) i s
  unfold actAll
  apply hp.foldl_eq'
  intro e he f hf s
  exact hcomm f (hp.mem_iff.mp hf) e (hp.mem_iff.mp he) s

theorem Draft.eq_of_held {d d' : Draft} (hs : d.size = d'.size) (h : ∀ i, d.held i = d'.held i) :
    d = d' := by
  obtain ⟨slots⟩ := d
  obtain ⟨slots'⟩ := d'
  simp only [Draft.size] at hs
  congr 1
  apply Array.ext hs
  intro i hi hi'
  have hheld := h i
  simp only [Draft.held, Array.getElem?_eq_getElem hi, Array.getElem?_eq_getElem hi'] at hheld
  exact hheld

/-- The edits can be made in any order, and make the same draft of the text. -/
theorem exists_applyAll_perm (h : Separate t es) :
    ∃ d, (∀ fs : List Edit, fs.Perm es → (Draft.ofText t).applyAll fs = .ok d) ∧ d.size = t.byteSize ∧
      ∀ i, d.held i = actAll es i ((Draft.ofText t).held i) := by
  have hbounds : ∀ fs : List Edit, fs.Perm es → ∃ d, (Draft.ofText t).applyAll fs = .ok d := by
    intro fs hp
    apply Draft.exists_applyAll_eq_ok
    intro e he
    have he := hp.mem_iff.mp he
    rw [Draft.size_ofText]
    exact ⟨h.nonempty e he, byteSize_le_of_hasBoundary (h.bounded e he).2⟩
  obtain ⟨d, hd⟩ := hbounds es (.refl es)
  obtain ⟨-, hsize, hheld⟩ := Draft.applyAll_eq_ok hd
  refine ⟨d, fun fs hp => ?_, hsize.trans (Draft.size_ofText t), hheld⟩
  obtain ⟨d', hd'⟩ := hbounds fs hp
  obtain ⟨-, hsize', hheld'⟩ := Draft.applyAll_eq_ok hd'
  rw [hd', Draft.eq_of_held (hsize'.trans hsize.symm)]
  intro i
  rw [hheld', hheld, actAll_perm h hp]

end

/-! ## Pieces of a text -/

theorem eq_nil_of_byteSize {t : TaggedText} (h : t.byteSize = 0) : t = [] := by
  cases t with
  | nil => rfl
  | cons c t =>
    have hpos := c.char.utf8Size_pos
    have hsize : byteSize (c :: t) = c.char.utf8Size + byteSize t := rfl
    omega

theorem splitAtByte_append (s u : TaggedText) : splitAtByte s.byteSize (s ++ u) = (s, u) := by
  induction s with
  | nil => cases u <;> rfl
  | cons c s ih =>
    have hpos := c.char.utf8Size_pos
    have hsize : byteSize (c :: s) = c.char.utf8Size + byteSize s := rfl
    rw [List.cons_append, splitAtByte, if_neg (by omega), hsize, Nat.add_sub_cancel_left, ih]

/-- A boundary behind the first part of a text is one of the rest. -/
theorem exists_of_hasBoundary {s u : TaggedText} {n : Nat} (h : (s ++ u).HasBoundary n)
    (hn : s.byteSize ≤ n) : ∃ v w : TaggedText, u = v ++ w ∧ n = s.byteSize + v.byteSize := by
  obtain ⟨before, after, heq, rfl⟩ := h
  rcases List.append_eq_append_iff.mp heq with ⟨v, rfl, rfl⟩ | ⟨v, rfl, rfl⟩
  · exact ⟨v, after, rfl, byteSize_append s v⟩
  · rw [byteSize_append] at hn
    have hv : v = [] := eq_nil_of_byteSize (by omega)
    rw [hv, List.append_nil]
    exact ⟨[], u, rfl, rfl⟩

theorem stretch_ofText_piece (s t u : TaggedText) :
    stretch (Draft.ofText (s ++ t ++ u)).held s.byteSize (s.byteSize + t.byteSize) = t := by
  have h := Draft.stretch_ofText_add s (t ++ u) 0 t.byteSize
  rw [Nat.add_zero, Draft.stretch_ofText_left, ← List.append_assoc] at h
  exact h

/-! ## Segments -/

theorem stretch_act_replace {f : Nat → Slot} {range : Span} (h : range.start < range.stop)
    (text : TaggedText) :
    stretch (fun i => (Edit.replace range text).act i (f i)) range.start range.stop = text := by
  rw [stretch_eq_first h]
  · rw [Edit.act, if_pos rfl]
  · intro i hi hi'
    rw [Edit.act, if_neg (by omega), if_pos ⟨hi, hi'⟩]

theorem stretch_act_self {f : Nat → Slot} {e : Edit} (h : e.range.start < e.range.stop) :
    stretch (fun i => e.act i (f i)) e.range.start e.range.stop =
      e.render (stretch f e.range.start e.range.stop) := by
  cases e with
  | replace range text => exact stretch_act_replace h text
  | prepend range text => exact stretch_act_prepend h text
  | append range text => exact stretch_act_append h text

/-- The ranges follow one another from a position on. -/
def FollowOn : Nat → List Edit → Prop
  | _, [] => True
  | position, e :: es => position ≤ e.range.start ∧ e.range.start < e.range.stop ∧ FollowOn e.range.stop es

theorem le_start_of_followOn {position : Nat} {es : List Edit} (h : FollowOn position es) :
    ∀ e ∈ es, position ≤ e.range.start ∧ e.range.start < e.range.stop := by
  induction es generalizing position with
  | nil => simp
  | cons e es ih =>
    obtain ⟨h1, h2, h3⟩ := h
    intro f hf
    rcases List.mem_cons.mp hf with rfl | hf
    · exact ⟨h1, h2⟩
    · have := ih h3 f hf
      omega

theorem actAll_of_followOn {position : Nat} {es : List Edit} (h : FollowOn position es) {i : Nat}
    (hi : i < position) (s : Slot) : actAll es i s = s := by
  apply actAll_of_outside
  intro e he
  have := le_start_of_followOn h e he
  omega

theorem followOn_of_sorted {position : Nat} {es : List Edit}
    (hstart : ∀ e ∈ es, position ≤ e.range.start ∧ e.range.start < e.range.stop)
    (hapart : es.Pairwise fun e f => e.range.Apart f.range)
    (hsorted : es.Pairwise fun e f => startsFirst e f) : FollowOn position es := by
  induction es generalizing position with
  | nil => trivial
  | cons e es ih =>
    obtain ⟨h1, h2⟩ := hstart e (by simp)
    rw [List.pairwise_cons] at hapart hsorted
    refine ⟨h1, h2, ih ?_ hapart.2 hsorted.2⟩
    intro f hf
    have hlt := (hstart f (by simp [hf])).2
    have hle : e.range.start ≤ f.range.start := by simpa [startsFirst] using hsorted.1 f hf
    have ha := hapart.1 f hf
    unfold Span.Apart at ha
    omega

/-- Edits in the order of their ranges make of the slots behind a position what the text behind it is
spliced to. -/
theorem stretch_eq_spliceFrom {t : TaggedText} : ∀ (es : List Edit) (s u : TaggedText), t = s ++ u →
    FollowOn s.byteSize es →
    (∀ e ∈ es, t.HasBoundary e.range.start ∧ t.HasBoundary e.range.stop) →
      stretch (fun i => actAll es i ((Draft.ofText t).held i)) s.byteSize t.byteSize =
        spliceFrom s.byteSize es u
  | [], s, u, ht, _, _ => by
    have h := stretch_ofText_piece s u []
    rw [List.append_nil, ← ht, ← byteSize_append, ← ht] at h
    exact h
  | e :: es, s, u, ht, hfollow, hb => by
    obtain ⟨h1, h2, h3⟩ := hfollow
    obtain ⟨hstart, hstop⟩ := hb e (by simp)
    rw [ht] at hstart hstop
    obtain ⟨before, rest, rfl, hn⟩ := exists_of_hasBoundary hstart h1
    rw [← List.append_assoc] at hstop
    obtain ⟨segment, after, rfl, hm⟩ := exists_of_hasBoundary hstop (by rw [byteSize_append]; omega)
    rw [byteSize_append, ← hn] at hm
    have hsize : t.byteSize = e.range.stop + after.byteSize := by
      rw [ht]
      simp only [byteSize_append]
      omega
    -- the three pieces are the slots up to the range, those of it, and those behind it
    have hleft : stretch (fun i => actAll (e :: es) i ((Draft.ofText t).held i)) s.byteSize
        e.range.start = before := by
      have hpiece := stretch_ofText_piece s before (segment ++ after)
      rw [← hn, List.append_assoc, ← ht] at hpiece
      rw [stretch_congr fun i hi hi' => ?_, hpiece]
      rw [actAll_cons, Edit.act_of_outside h2 (.inl hi'), actAll_of_followOn h3 (by omega)]
    have hmid : stretch (fun i => actAll (e :: es) i ((Draft.ofText t).held i)) e.range.start
        e.range.stop = e.render segment := by
      have hpiece := stretch_ofText_piece (s ++ before) segment after
      rw [byteSize_append, ← hn, ← hm, List.append_assoc, List.append_assoc, ← ht] at hpiece
      rw [stretch_congr fun i hi hi' => ?_, stretch_act_self h2, hpiece]
      rw [actAll_cons, actAll_of_followOn h3 hi']
    have hright : stretch (fun i => actAll (e :: es) i ((Draft.ofText t).held i)) e.range.stop
        t.byteSize = spliceFrom e.range.stop es after := by
      have hpre : (s ++ before ++ segment).byteSize = e.range.stop := by
        simp only [byteSize_append]
        omega
      have ih := stretch_eq_spliceFrom es (s ++ before ++ segment) after (by simp [ht]) (hpre ▸ h3)
        fun f hf => hb f (by simp [hf])
      rw [hpre] at ih
      rw [← ih]
      apply stretch_congr
      intro i hi hi'
      rw [actAll_cons, Edit.act_of_outside h2 (.inr hi)]
    have hcut : e.range.start - s.byteSize = before.byteSize := by omega
    have hcut' : e.range.stop - e.range.start = segment.byteSize := by omega
    rw [← stretch_append (b := e.range.start) h1 (by omega),
      ← stretch_append (b := e.range.stop) (Nat.le_of_lt h2) (by omega), hleft, hmid, hright,
      spliceFrom, hcut, splitAtByte_append]
    simp only [hcut', splitAtByte_append, List.append_assoc]

/-- Whatever their order, edits of separate ranges make one draft of a text, and the text of it is
the spliced one. -/
theorem applyAll_perm_source_eq_splice {t : TaggedText} {es : List Edit} (h : Separate t es) :
    ∃ d, (∀ fs : List Edit, fs.Perm es → (Draft.ofText t).applyAll fs = .ok d) ∧
      d.source = splice es t := by
  obtain ⟨d, hd, hsize, hheld⟩ := exists_applyAll_perm h
  refine ⟨d, hd, ?_⟩
  have hp := List.mergeSort_perm es startsFirst
  have hsorted := h.perm hp
  have hfollow : FollowOn 0 (es.mergeSort startsFirst) := by
    apply followOn_of_sorted (fun e he => ⟨Nat.zero_le _, hsorted.nonempty e he⟩) hsorted.apart
    apply List.pairwise_mergeSort
    · simp only [startsFirst, decide_eq_true_eq]
      omega
    · simp only [startsFirst, Bool.or_eq_true, decide_eq_true_eq]
      omega
  have hsplice := stretch_eq_spliceFrom (es.mergeSort startsFirst) [] t rfl hfollow hsorted.bounded
  rw [Draft.source_eq_stretch, hsize, splice]
  refine (stretch_congr ?_).trans hsplice
  intro i _ _
  rw [hheld, actAll_perm h hp]
  rfl

/-- Something goes behind a character of two bytes, and the next two are exchanged and enclosed. -/
def sampleEdits : List Edit :=
  [.prepend ⟨3, 4⟩ (inserted "("), .append ⟨0, 2⟩ (inserted "!"), .replace ⟨2, 3⟩ (inserted "<-")]

theorem applyAll_sampleEdits : ∃ d : Draft,
    (∀ fs : List Edit, fs.Perm sampleEdits → (Draft.ofText (typed "é=1" none)).applyAll fs = .ok d) ∧
      d.source = splice sampleEdits (typed "é=1" none) ∧ d.text = "é!<-(1" := by
  have hseparate : Separate (typed "é=1" none) sampleEdits := by
    constructor
    · decide
    · have h0 : (typed "é=1" none).HasBoundary 0 := ⟨[], _, rfl, rfl⟩
      have h2 : (typed "é=1" none).HasBoundary 2 := ⟨typed "é" none, _, rfl, rfl⟩
      have h3 : (typed "é=1" none).HasBoundary 3 := ⟨typed "é=" none, _, rfl, rfl⟩
      have h4 : (typed "é=1" none).HasBoundary 4 := ⟨typed "é=1" none, [], rfl, rfl⟩
      simp [sampleEdits, Edit.range, h0, h2, h3, h4]
    · simp [sampleEdits, Edit.range, Span.Apart]
  obtain ⟨d, hd, hsource⟩ := applyAll_perm_source_eq_splice hseparate
  refine ⟨d, hd, hsource, ?_⟩
  have htext : ((Draft.ofText (typed "é=1" none)).applyAll sampleEdits).toOption.map Draft.text =
      some "é!<-(1" := by
    decide +kernel
  rw [hd sampleEdits (.refl _)] at htext
  simpa [Except.toOption] using htext

end NotebookCell
