import NotebookCell.Proofs.Slots

/-!
# Drafts at work

Work on a draft goes on in steps: an edit, which may be refused, or the settling of all edits that
were made. Through any number of steps a draft has one slot for each byte of the text that it was
last made from, and a refused edit leaves it as it was.
-/

namespace NotebookCell

open TaggedText

inductive DraftStep where
  | edit (e : Edit)
  | settle

/-- A draft and the text that its slots were made from. -/
structure WorkingDraft where
  base : TaggedText
  draft : Draft

namespace WorkingDraft

def ofText (t : TaggedText) : WorkingDraft := ⟨t, .ofText t⟩

/-- A refused edit is passed over. -/
def step (w : WorkingDraft) : DraftStep → WorkingDraft
  | .edit e =>
    match w.draft.apply e with
    | .ok draft => { w with draft }
    | .error _ => w
  | .settle => ⟨w.draft.source, w.draft.settle⟩

def run (w : WorkingDraft) (steps : List DraftStep) : WorkingDraft := steps.foldl step w

end WorkingDraft

/-! ## Refused edits -/

/-- The range is reversed, ends behind the draft or starts at its end, or is empty where text is to
go behind it. -/
def Edit.IsRefused (size : Nat) (e : Edit) : Prop :=
  e.range.stop < e.range.start ∨ size < e.range.stop ∨ size ≤ e.range.start ∨
    ∃ range text, e = .append range text ∧ range.start = range.stop

namespace Draft

variable {d : Draft} {e : Edit}

theorem apply_eq_error_of_not_admits (h : ¬d.admits e.range) :
    d.apply e = .error (.outside e.range d.size) := by
  unfold apply
  simp [h]

theorem isRefused_of_not_admits (h : ¬d.admits e.range) : e.IsRefused d.size := by
  rw [admits_iff] at h
  unfold Edit.IsRefused
  omega

theorem exists_apply_eq_error_iff : (∃ f, d.apply e = .error f) ↔ e.IsRefused d.size := by
  by_cases ha : d.admits e.range
  · have hr := admits_iff.mp ha
    cases e with
    | replace range text =>
      simp only [Edit.range] at ha hr
      simp [apply, Edit.IsRefused, Edit.range, ha]
      omega
    | prepend range text =>
      simp only [Edit.range] at ha hr
      simp [apply, Edit.IsRefused, Edit.range, ha]
      omega
    | append range text =>
      simp only [Edit.range] at ha hr
      by_cases hlt : range.start < range.stop
      · simp [apply, Edit.IsRefused, Edit.range, ha, hlt]
        omega
      · have heq : range.start = range.stop := by omega
        simp [apply, Edit.IsRefused, Edit.range, ha, heq]
  · exact ⟨fun _ => isRefused_of_not_admits ha, fun _ => ⟨_, apply_eq_error_of_not_admits ha⟩⟩

/-! ## Layout -/

/-- Each character of the text is alone in the slot of its first byte, and the slots of its other
bytes are empty. -/
def LaysOut (d : Draft) (t : TaggedText) : Prop :=
  ∀ (before : TaggedText) c after, t = before ++ c :: after → d.slot? before.byteSize = some [c] ∧
    ∀ k, 0 < k → k < c.char.utf8Size → d.slot? (before.byteSize + k) = some []

theorem slot?_ofText (t : TaggedText) (i : Nat) : (ofText t).slot? i = (slotsOf t)[i]? := by
  simp [slot?, ofText]

theorem laysOut_ofText (t : TaggedText) : (ofText t).LaysOut t := by
  rintro before c after rfl
  have hslot : ∀ k, (ofText (before ++ c :: after)).slot? (before.byteSize + k) =
      (slotsOf (c :: after))[k]? := by
    intro k
    rw [slot?_ofText, slotsOf_append, List.getElem?_append_right (by simp), length_slotsOf,
      Nat.add_sub_cancel_left]
  constructor
  · rw [← Nat.add_zero before.byteSize, hslot]
    rfl
  · intro k hk hlt
    obtain ⟨j, rfl⟩ := Nat.exists_eq_add_of_lt hk
    have hj : j < c.char.utf8Size - 1 := by omega
    rw [hslot, Nat.zero_add, slotsOf, List.getElem?_cons_succ,
      List.getElem?_append_left (by simpa using hj)]
    simp [hj]

@[simp] theorem source_settle (d : Draft) : d.settle.source = d.source := source_ofText d.source

@[simp] theorem settle_settle (d : Draft) : d.settle.settle = d.settle := by
  rw [settle, source_settle, ← settle]

theorem size_settle (d : Draft) : d.settle.size = byteLength d.text.toList := by
  rw [settle, size_ofText, byteSize, text, TaggedText.text, String.toList_ofList]

/-- The text is what the slots hold, one after the other. -/
theorem toList_text (d : Draft) : d.text.toList = d.slots.toList.flatMap chars := by
  rw [text, TaggedText.text, String.toList_ofList, source, chars, List.map_flatten, List.flatMap_def]
  rfl

end Draft

/-! ## Steps and runs -/

namespace WorkingDraft

variable {w : WorkingDraft}

theorem step_of_isRefused {e : Edit} (h : e.IsRefused w.draft.size) : w.step (.edit e) = w := by
  obtain ⟨f, hf⟩ := Draft.exists_apply_eq_error_iff.mpr h
  simp only [step, hf]

theorem size_step_edit (w : WorkingDraft) (e : Edit) :
    (w.step (.edit e)).draft.size = w.draft.size ∧ (w.step (.edit e)).base = w.base := by
  cases h : w.draft.apply e with
  | error f => simp [step, h]
  | ok d => simp [step, h, (Draft.apply_eq_ok h).2.1]

theorem size_step (h : w.draft.size = w.base.byteSize) (s : DraftStep) :
    (w.step s).draft.size = (w.step s).base.byteSize := by
  cases s with
  | edit e =>
    obtain ⟨hsize, hbase⟩ := size_step_edit w e
    rw [hsize, hbase, h]
  | settle => exact Draft.size_ofText _

theorem size_run (h : w.draft.size = w.base.byteSize) (steps : List DraftStep) :
    (w.run steps).draft.size = (w.run steps).base.byteSize := by
  induction steps generalizing w with
  | nil => exact h
  | cons s steps ih => exact ih (size_step h s)

/-- What holds of a draft whatever was done to it. -/
structure Coherent (w : WorkingDraft) : Prop where
  text_eq : w.draft.text = w.draft.source.text ∧ w.draft.text.toList = w.draft.slots.toList.flatMap chars
  size_eq : w.draft.size = w.base.byteSize
  fails_iff : ∀ e, (∃ f, w.draft.apply e = .error f) ↔ e.IsRefused w.draft.size
  refused : ∀ e, e.IsRefused w.draft.size → w.step (.edit e) = w
  edited : ∀ e, (w.step (.edit e)).draft.size = w.draft.size ∧ (w.step (.edit e)).base = w.base
  settled : (w.step .settle).base = w.draft.source ∧ (w.step .settle).draft.source = w.draft.source ∧
    (w.step .settle).draft.size = byteLength w.draft.text.toList ∧
      (w.step .settle).draft.LaysOut w.draft.source
  settled_again : (w.step .settle).step .settle = w.step .settle

theorem coherent_of_size (h : w.draft.size = w.base.byteSize) : w.Coherent where
  text_eq := ⟨rfl, w.draft.toList_text⟩
  size_eq := h
  fails_iff _ := Draft.exists_apply_eq_error_iff
  refused _ := step_of_isRefused
  edited := size_step_edit w
  settled := ⟨rfl, w.draft.source_settle, w.draft.size_settle, Draft.laysOut_ofText _⟩
  settled_again := by simp [step]

/-- Whatever steps are taken, refused edits among them, the draft stays coherent. -/
theorem coherent_run (t : TaggedText) (steps : List DraftStep) : ((ofText t).run steps).Coherent :=
  coherent_of_size (size_run (Draft.size_ofText t) steps)

end WorkingDraft

end NotebookCell
