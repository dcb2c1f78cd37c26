import NotebookCell.Text.Draft
import Mathlib.Data.List.Basic

/-!
# Drafts slot by slot

A draft is what its slots hold, so a text is a `stretch` of slots and an edit is a change of each
slot by itself. Slots that no edit acts on stay as they are, which is why the text before, between
and after edited ranges survives.
-/

namespace NotebookCell

/-! ## Stretches -/

/-- What the slots from one position up to another hold. -/
def stretch (f : Nat → Slot) (a b : Nat) : TaggedText := (List.range' a (b - a)).flatMap f

section
variable {f g : Nat → Slot} {a b c : Nat}

theorem stretch_append (hab : a ≤ b) (hbc : b ≤ c) : stretch f a b ++ stretch f b c = stretch f a c := by
  have h := @List.range'_append a (b - a) (c - b) 1
  rw [Nat.one_mul, Nat.add_sub_cancel' hab, show b - a + (c - b) = c - a by omega] at h
  rw [stretch, stretch, stretch, ← List.flatMap_append, h]

theorem stretch_congr (h : ∀ i, a ≤ i → i < b → f i = g i) : stretch f a b = stretch g a b := by
  rw [stretch, stretch, List.flatMap_def, List.flatMap_def, List.map_congr_left]
  intro i hi
  rw [List.mem_range'_1] at hi
  exact h i hi.1 (by omega)

theorem stretch_append_congr (hab : a ≤ b) (hbc : b ≤ c) (h : stretch f a b = stretch g a b)
    (h' : stretch f b c = stretch g b c) : stretch f a c = stretch g a c := by
  rw [← stretch_append hab hbc, h, h', stretch_append hab hbc]

@[simp] theorem stretch_self (f : Nat → Slot) (a : Nat) : stretch f a a = [] := by
  simp [stretch]

theorem stretch_succ (h : a < b) : stretch f a b = f a ++ stretch f (a + 1) b := by
  rw [stretch, stretch, show b - a = b - (a + 1) + 1 by omega, List.range'_succ, List.flatMap_cons]

theorem stretch_eq_nil (h : ∀ i, a ≤ i → i < b → f i = []) : stretch f a b = [] := by
  rw [stretch, List.flatMap_eq_nil_iff]
  intro i hi
  rw [List.mem_range'_1] at hi
  exact h i hi.1 (by omega)

theorem stretch_eq_first (hab : a < b) (h : ∀ i, a < i → i < b → f i = []) : stretch f a b = f a := by
  rw [stretch_succ hab, stretch_eq_nil fun i hi => h i hi, List.append_nil]

theorem stretch_shift (f : Nat → Slot) (n a b : Nat) :
    stretch f (n + a) (n + b) = stretch (fun i => f (n + i)) a b := by
  rw [stretch, stretch, Nat.add_sub_add_left, List.range'_eq_map_range, List.range'_eq_map_range (s := a)]
  simp [List.flatMap_map, Nat.add_assoc]

theorem mem_stretch {ch : TaggedChar} : ch ∈ stretch f a b ↔ ∃ i, a ≤ i ∧ i < b ∧ ch ∈ f i := by
  simp only [stretch, List.mem_flatMap, List.mem_range'_1]
  constructor
  · rintro ⟨i, hi, h⟩
    exact ⟨i, hi.1, by omega, h⟩
  · rintro ⟨i, ha, hb, h⟩
    exact ⟨i, ⟨ha, by omega⟩, h⟩

theorem filter_stretch (p : TaggedChar → Bool) :
    (stretch f a b).filter p = stretch (fun i => (f i).filter p) a b := by
  simp only [stretch, List.filter_flatMap]

end

/-! ## Drafts -/

namespace Draft

variable {d : Draft}

def held (d : Draft) (i : Nat) : Slot := d.slots[i]?.getD []

theorem flatten_eq_stretch (slots : List Slot) :
    slots.flatten = stretch (fun i => slots[i]?.getD []) 0 slots.length := by
  induction slots with
  | nil => rfl
  | cons s slots ih =>
    have h := stretch_shift (fun i => (s :: slots)[i]?.getD []) 1 0 slots.length
    rw [Nat.add_comm 1 slots.length] at h
    rw [stretch_succ (by simp), List.length_cons, h, List.flatten_cons, ih]
    simp [Nat.add_comm 1]

theorem source_eq_stretch (d : Draft) : d.source = stretch d.held 0 d.size := by
  rw [source, flatten_eq_stretch, size, Array.length_toList]
  exact stretch_congr fun i _ _ => by simp [held]

theorem slice_eq_stretch {range : Span} (h : range.start ≤ range.stop) (hs : range.stop ≤ d.size) :
    d.slice range = stretch d.held range.start range.stop := by
  have hl : (d.slots.extract range.start range.stop).toList.length = range.stop - range.start := by
    simp only [size] at hs
    simp only [Array.length_toList, Array.size_extract]
    omega
  have hsh := stretch_shift d.held range.start 0 (range.stop - range.start)
  rw [Nat.add_zero, Nat.add_sub_cancel' h] at hsh
  rw [slice, slice?, if_pos ⟨h, hs⟩, Option.getD_some, flatten_eq_stretch, hl, hsh]
  refine stretch_congr fun i _ hi => ?_
  have : range.start + i < d.slots.size := by simp only [size] at hs; omega
  simp [held, hi, this]

/-! ## Fresh drafts -/

@[simp] theorem length_slotsOf (t : TaggedText) : (slotsOf t).length = t.byteSize := by
  have h := size_ofText t
  simpa [size, ofText] using h

theorem slotsOf_append (s t : TaggedText) : slotsOf (s ++ t) = slotsOf s ++ slotsOf t := by
  induction s with
  | nil => rfl
  | cons c s ih => simp [slotsOf, ih]

theorem held_ofText (t : TaggedText) (i : Nat) : (ofText t).held i = (slotsOf t)[i]?.getD [] := by
  simp [held, ofText]

theorem held_ofText_append_of_lt {s : TaggedText} {i : Nat} (h : i < s.byteSize) (t : TaggedText) :
    (ofText (s ++ t)).held i = (ofText s).held i := by
  rw [held_ofText, held_ofText, slotsOf_append, List.getElem?_append_left (by simpa using h)]

theorem held_ofText_append_add (s t : TaggedText) (i : Nat) :
    (ofText (s ++ t)).held (s.byteSize + i) = (ofText t).held i := by
  rw [held_ofText, held_ofText, slotsOf_append, List.getElem?_append_right (by simp)]
  simp

theorem stretch_ofText (t : TaggedText) : stretch (ofText t).held 0 t.byteSize = t := by
  rw [← size_ofText, ← source_eq_stretch, source_ofText]

theorem stretch_ofText_left (s t : TaggedText) : stretch (ofText (s ++ t)).held 0 s.byteSize = s := by
  rw [stretch_congr fun i _ hi => held_ofText_append_of_lt hi t, stretch_ofText]

theorem stretch_ofText_add (s t : TaggedText) (a b : Nat) :
    stretch (ofText (s ++ t)).held (s.byteSize + a) (s.byteSize + b) = stretch (ofText t).held a b := by
  rw [stretch_shift]
  exact stretch_congr fun i _ _ => held_ofText_append_add s t i

end Draft

/-! ## Edits -/

/-- What an edit makes of a slot. -/
def Edit.act (i : Nat) (s : Slot) : Edit → Slot
  | .replace range text =>
    if i = range.start then text else if range.start < i ∧ i < range.stop then [] else s
  | .prepend range text => if i = range.start then text ++ s else s
  | .append range text => if i + 1 = range.stop then s ++ text else s

def actAll (es : List Edit) (i : Nat) (s : Slot) : Slot := es.foldl (fun s e => e.act i s) s

@[simp] theorem actAll_nil (i : Nat) (s : Slot) : actAll [] i s = s := rfl

@[simp] theorem actAll_cons (e : Edit) (es : List Edit) (i : Nat) (s : Slot) :
    actAll (e :: es) i s = actAll es i (e.act i s) := rfl

theorem actAll_append (es ds : List Edit) (i : Nat) (s : Slot) :
    actAll (es ++ ds) i s = actAll ds i (actAll es i s) := by
  rw [actAll, List.foldl_append]
  rfl

theorem Edit.act_of_outside {e : Edit} {i : Nat} (hr : e.range.start < e.range.stop)
    (h : i < e.range.start ∨ e.range.stop ≤ i) (s : Slot) : e.act i s = s := by
  cases e with
  | replace range text =>
    simp only [Edit.range] at hr h
    rw [Edit.act, if_neg (by omega), if_neg (by omega)]
  | prepend range text =>
    simp only [Edit.range] at hr h
    rw [Edit.act, if_neg (by omega)]
  | append range text =>
    simp only [Edit.range] at hr h
    rw [Edit.act, if_neg (by omega)]

theorem actAll_of_outside {es : List Edit} {i : Nat}
    (h : ∀ e ∈ es, e.range.start < e.range.stop ∧ (i < e.range.start ∨ e.range.stop ≤ i)) (s : Slot) :
    actAll es i s = s := by
  induction es with
  | nil => rfl
  | cons e es ih =>
    have he := h e (by simp)
    rw [actAll_cons, Edit.act_of_outside he.1 he.2]
    exact ih fun e' he' => h e' (by simp [he'])

theorem stretch_act_prepend {f : Nat → Slot} {range : Span} {b : Nat} (h : range.start < b)
    (text : TaggedText) :
    stretch (fun i => (Edit.prepend range text).act i (f i)) range.start b =
      text ++ stretch f range.start b := by
  rw [stretch_succ h, stretch_succ h, ← List.append_assoc]
  congr 1
  · rw [Edit.act, if_pos rfl]
  · refine stretch_congr fun i hi _ => ?_
    rw [Edit.act, if_neg (by omega)]

theorem stretch_act_append {f : Nat → Slot} {range : Span} {a : Nat} (h : a < range.stop)
    (text : TaggedText) :
    stretch (fun i => (Edit.append range text).act i (f i)) a range.stop =
      stretch f a range.stop ++ text := by
  have hsplit : ∀ g : Nat → Slot,
      stretch g a range.stop = stretch g a (range.stop - 1) ++ g (range.stop - 1) := fun g => by
    have hlast := stretch_succ (f := g) (show range.stop - 1 < range.stop by omega)
    rw [Nat.sub_add_cancel (by omega), stretch_self, List.append_nil] at hlast
    rw [← hlast, stretch_append (by omega) (by omega)]
  rw [hsplit, hsplit f, List.append_assoc]
  congr 1
  · refine stretch_congr fun i _ hi => ?_
    rw [Edit.act, if_neg (by omega)]
  · rw [Edit.act, if_pos (by omega)]

namespace Draft

variable {d d' : Draft} {e : Edit} {es : List Edit}

theorem admits_iff {range : Span} :
    d.admits range ↔ range.start ≤ range.stop ∧ range.stop ≤ d.size ∧ range.start < d.size := by
  simp [admits, and_assoc]

/-- An edit that is applied has a range in the draft and acts on each slot by itself. -/
theorem apply_eq_ok (h : d.apply e = .ok d') :
    d.admits e.range ∧ d'.size = d.size ∧ ∀ i, d'.held i = e.act i (d.held i) := by
  unfold apply at h
  split at h
  · cases h
  rename_i ha
  simp only [Bool.not_eq_true', Bool.not_eq_false] at ha
  have hr := admits_iff.mp ha
  refine ⟨ha, ?_⟩
  cases e with
  | replace range text =>
    cases h
    simp only [Edit.range, size] at hr
    refine ⟨by simp [overwrite, size], fun i => ?_⟩
    by_cases hi : i < d.slots.size
    · simp [held, overwrite, Edit.act, hi]
    · have hi : d.slots.size ≤ i := by omega
      simp only [held, overwrite, Edit.act, Array.getElem?_mapIdx, Array.getElem?_eq_none hi]
      rw [if_neg (by omega), if_neg (by omega)]
      rfl
  | prepend range text =>
    cases h
    simp only [Edit.range, size] at hr
    refine ⟨by simp [size], fun i => ?_⟩
    by_cases hi : i = range.start
    · simp [held, Edit.act, Array.getElem_modify, Slot.prepend, hi, hr.2.2]
    · simp [held, Edit.act, Array.getElem?_modify, hi, Ne.symm hi]
  | append range text =>
    simp only [Edit.range, size] at hr h
    split at h
    · cases h
      refine ⟨by simp [size], fun i => ?_⟩
      by_cases hi : i + 1 = range.stop
      · have hs : i < d.slots.size := by omega
        simp [held, Edit.act, Array.getElem_modify, Slot.append, ← hi, hs]
      · have hi' : range.stop - 1 ≠ i := by omega
        simp [held, Edit.act, Array.getElem?_modify, hi, hi']
    · cases h

theorem exists_apply_eq_ok (h : e.range.start < e.range.stop) (hs : e.range.stop ≤ d.size) :
    ∃ d', d.apply e = .ok d' := by
  have ha : d.admits e.range := admits_iff.mpr ⟨by omega, hs, by omega⟩
  unfold apply
  rw [ha]
  cases e with
  | replace range text => exact ⟨_, rfl⟩
  | prepend range text => exact ⟨_, rfl⟩
  | append range text =>
    simp only [Edit.range] at h
    simp [h]

theorem applyAll_cons_eq_ok (h : d.applyAll (e :: es) = .ok d') :
    ∃ d₁, d.apply e = .ok d₁ ∧ d₁.applyAll es = .ok d' := by
  rw [applyAll, List.foldlM_cons] at h
  cases h₁ : d.apply e with
  | error f => simp [h₁, bind, Except.bind] at h
  | ok d₁ => exact ⟨d₁, rfl, by simpa [applyAll, h₁, bind, Except.bind] using h⟩

theorem applyAll_eq_ok (h : d.applyAll es = .ok d') :
    (∀ e ∈ es, d.admits e.range) ∧ d'.size = d.size ∧ ∀ i, d'.held i = actAll es i (d.held i) := by
  induction es generalizing d with
  | nil =>
    cases h
    exact ⟨by simp, rfl, fun i => rfl⟩
  | cons e es ih =>
    obtain ⟨d₁, h₁, h₂⟩ := applyAll_cons_eq_ok h
    obtain ⟨ha, hs, hh⟩ := apply_eq_ok h₁
    obtain ⟨ha', hs', hh'⟩ := ih h₂
    have hsame : ∀ range, d₁.admits range = d.admits range := fun range => by simp [admits, hs]
    refine ⟨?_, hs'.trans hs, fun i => by rw [hh', hh, actAll_cons]⟩
    intro e' he'
    rcases List.mem_cons.mp he' with rfl | he'
    · exact ha
    · rw [← hsame]
      exact ha' e' he'

theorem exists_applyAll_eq_ok
    (h : ∀ e ∈ es, e.range.start < e.range.stop ∧ e.range.stop ≤ d.size) :
    ∃ d', d.applyAll es = .ok d' := by
  induction es generalizing d with
  | nil => exact ⟨d, rfl⟩
  | cons e es ih =>
    have he := h e (by simp)
    obtain ⟨d₁, h₁⟩ := exists_apply_eq_ok he.1 he.2
    have hsize : d₁.size = d.size := (apply_eq_ok h₁).2.1
    obtain ⟨d', h'⟩ := ih (d := d₁) fun e' he' => by
      rw [hsize]
      exact h e' (by simp [he'])
    refine ⟨d', ?_⟩
    rw [applyAll, List.foldlM_cons, h₁]
    exact h'

/-- Edits inside of the middle of a text leave its ends. -/
theorem source_applyAll_inside {s t u : TaggedText} (h : (ofText (s ++ t ++ u)).applyAll es = .ok d')
    (hr : ∀ e ∈ es, s.byteSize ≤ e.range.start ∧ e.range.start < e.range.stop ∧
      e.range.stop ≤ s.byteSize + t.byteSize) :
    d'.source =
      s ++ stretch (fun i => actAll es (s.byteSize + i) ((ofText t).held i)) 0 t.byteSize ++ u := by
  obtain ⟨-, hs, hh⟩ := applyAll_eq_ok h
  have hout : ∀ i, i < s.byteSize ∨ s.byteSize + t.byteSize ≤ i →
      d'.held i = (ofText (s ++ t ++ u)).held i := fun i hi => by
    rw [hh, actAll_of_outside fun e he => ?_]
    have := hr e he
    omega
  have hs : d'.size = s.byteSize + t.byteSize + u.byteSize := by
    rw [hs, size_ofText, TaggedText.byteSize_append, TaggedText.byteSize_append]
  rw [source_eq_stretch, hs, ← stretch_append (b := s.byteSize + t.byteSize) (by omega) (by omega),
    ← stretch_append (b := s.byteSize) (by omega) (by omega)]
  congr 1
  congr 1
  · rw [stretch_congr fun i _ hi => hout i (.inl hi), List.append_assoc, stretch_ofText_left]
  · rw [← Nat.add_zero s.byteSize, Nat.add_assoc, stretch_shift, Nat.zero_add]
    refine stretch_congr fun i _ hi => ?_
    rw [hh, Nat.add_zero, List.append_assoc, held_ofText_append_add, held_ofText_append_of_lt hi]
  · rw [stretch_congr fun i hi _ => hout i (.inr hi), ← TaggedText.byteSize_append]
    have := stretch_ofText_add (s ++ t) u 0 u.byteSize
    rwa [Nat.add_zero, stretch_ofText] at this

end Draft

end NotebookCell
