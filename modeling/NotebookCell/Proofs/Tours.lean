import Mathlib.Data.List.Nodup
import NotebookCell.Walk

/-!
# Tours of a tree

The steps of a walk, each at a place of the tree. They depend on nothing but the tree and the places
that are skipped. They are well bracketed, and the places entered are those of the tracked nodes that
nothing skipped is above of, each of them once.
-/

namespace NotebookCell

open Script

/-! ## Places -/

namespace Script.Tree

/-- The node that a path leads to; a path gives the number of a child for each node on its way. -/
def at? : List Nat → Tree → Option Tree
  | [], t => some t
  | i :: path, t => t.children[i]?.bind (at? path)

def tracked? (t : Tree) : Option TrackedNode := t.label.kind?.map (⟨·, t⟩)

def trackedAt? (path : List Nat) (t : Tree) : Option TrackedNode := (t.at? path).bind tracked?

/-- The tracked nodes above the end of a path, the outermost first. -/
def chainTo : List Nat → Tree → List Ancestor
  | [], _ => []
  | i :: path, t =>
    (t.tracked?.map TrackedNode.ancestor).toList ++ (t.children[i]?.map (chainTo path)).getD []

/-- The trees of a script below one node. -/
def ofBody (ts : List Tree) : Tree := .node .script ⟨0, 0⟩ ts

section
variable {label : Label} (span : Span) (children : List Tree) (i : Nat) (path : List Nat)

theorem trackedAt?_nil (t : Tree) : t.trackedAt? [] = t.tracked? := rfl

theorem trackedAt?_cons (label : Label) : (node label span children).trackedAt? (i :: path) =
    children[i]?.bind (trackedAt? path) := by
  unfold trackedAt?
  rw [at?, Option.bind_assoc]
  rfl

theorem tracked?_of_kind {kind : TrackedKind} (h : label.kind? = some kind) :
    (node label span children).tracked? = some ⟨kind, node label span children⟩ := by
  unfold tracked?
  rw [Tree.label, h]
  rfl

theorem tracked?_of_untracked (h : label.kind? = none) : (node label span children).tracked? = none := by
  unfold tracked?
  rw [Tree.label, h]
  rfl

theorem trackedAt?_of_untracked (h : label.kind? = none) :
    (node label span children).trackedAt? path = (ofBody children).trackedAt? path := by
  cases path with
  | nil => exact tracked?_of_untracked span children h
  | cons i path => rfl

theorem chainTo_of_untracked (h : label.kind? = none) :
    (node label span children).chainTo path = (ofBody children).chainTo path := by
  cases path with
  | nil => rfl
  | cons i path =>
    rw [chainTo, tracked?_of_untracked span children h]
    rfl

theorem chainTo_of_kind {kind : TrackedKind} (h : label.kind? = some kind) :
    (node label span children).chainTo (i :: path) =
      ⟨kind, span⟩ :: (ofBody children).chainTo (i :: path) := by
  rw [chainTo, tracked?_of_kind span children h]
  rfl

end

end Script.Tree

/-! ## Tours -/

/-- A call of a hook at a place of a tree. -/
structure Step where
  hook : Hook
  path : List Nat
  deriving DecidableEq

def Step.move (f : List Nat → List Nat) (step : Step) : Step := ⟨step.hook, f step.path⟩

/-- The place among the children of a node, with one more child before them. -/
def nextChild (path : List Nat) : List Nat := path.modifyHead (· + 1)

mutual

/-- The calls of a walk that skips the nodes at some places. -/
def Script.Tree.tour (skips : List Nat → Bool) : Tree → List Step
  | .node label _ children =>
    match label.kind? with
    | none => tourAll skips children
    | some _ =>
      ⟨.enter, []⟩ :: ((if skips [] then [] else tourAll skips children) ++ [⟨.leave, []⟩])

def tourAll (skips : List Nat → Bool) : List Tree → List Step
  | [] => []
  | t :: ts =>
    (t.tour fun path => skips (0 :: path)).map (Step.move (0 :: ·)) ++
      (tourAll (fun path => skips (nextChild path)) ts).map (Step.move nextChild)

end

/-- The places at which a hook is called. -/
def placesOf (hook : Hook) (steps : List Step) : List (List Nat) :=
  (steps.filter (·.hook = hook)).map Step.path

/-- Each `enter` has its `leave`, right behind it where the node is skipped. What stands between
them is well bracketed and lies below the node. -/
inductive WellBracketed (skips : List Nat → Bool) : List Step → Prop
  | nil : WellBracketed skips []
  | node {path : List Nat} {inner rest : List Step} (skipped : skips path → inner = [])
      (below : ∀ step ∈ inner, path <+: step.path ∧ path ≠ step.path)
      (bracketed : WellBracketed skips inner) (further : WellBracketed skips rest) :
      WellBracketed skips (⟨.enter, path⟩ :: (inner ++ ⟨.leave, path⟩ :: rest))

/-- The steps are those of a walk over the tree that skips the nodes at some places. -/
structure IsTour (t : Tree) (skips : List Nat → Bool) (steps : List Step) : Prop where
  bracketed : WellBracketed skips steps
  entered_once : (placesOf .enter steps).Nodup
  left_once : (placesOf .leave steps).Perm (placesOf .enter steps)
  entered_iff : ∀ path, path ∈ placesOf .enter steps ↔ (t.trackedAt? path).isSome ∧
    ∀ q, q <+: path → q ≠ path → (t.trackedAt? q).isSome → skips q = false

/-- What a hook is given at a place of a tree that itself stands below some nodes. -/
def Step.given? (t : Tree) (above : List Ancestor) (step : Step) :
    Option (TrackedNode × List Ancestor) :=
  (t.trackedAt? step.path).map fun n => (n, (t.chainTo step.path).reverse ++ above)

/-! ## Tours side by side -/

section
variable {skips : List Nat → Bool} {hook : Hook} {steps further : List Step}

theorem placesOf_append :
    placesOf hook (steps ++ further) = placesOf hook steps ++ placesOf hook further := by
  unfold placesOf
  rw [List.filter_append, List.map_append]

theorem placesOf_move (f : List Nat → List Nat) :
    placesOf hook (steps.map (Step.move f)) = (placesOf hook steps).map f := by
  unfold placesOf
  rw [List.filter_map, List.map_map, List.map_map]
  rfl

theorem mem_placesOf {path : List Nat} : path ∈ placesOf hook steps ↔ ⟨hook, path⟩ ∈ steps := by
  unfold placesOf
  simp only [List.mem_map, List.mem_filter, decide_eq_true_eq]
  constructor
  · intro ⟨step, ⟨hs, hh⟩, hp⟩
    subst hh hp
    exact hs
  · intro h
    exact ⟨_, ⟨h, rfl⟩, rfl⟩

theorem WellBracketed.append (h : WellBracketed skips steps) (hf : WellBracketed skips further) :
    WellBracketed skips (steps ++ further) := by
  induction h with
  | nil => exact hf
  | node hs hb hi _ _ ih =>
    simp only [List.cons_append, List.append_assoc]
    exact .node hs hb hi ih

/-- Places may be moved along with what is skipped, as long as they stay below each other. -/
theorem WellBracketed.move {f : List Nat → List Nat} (hf : Function.Injective f)
    (hp : ∀ {p q}, p <+: q → f p <+: f q) (h : WellBracketed (fun path => skips (f path)) steps) :
    WellBracketed skips (steps.map (Step.move f)) := by
  induction h with
  | nil => exact .nil
  | @node path inner rest hs hb _ _ ihi ihf =>
    simp only [List.map_cons, List.map_append]
    apply WellBracketed.node
    · intro h
      rw [hs h]
      rfl
    · intro moved hm
      obtain ⟨step, h, rfl⟩ := List.mem_map.mp hm
      exact ⟨hp (hb step h).1, fun e => (hb step h).2 (hf e)⟩
    · exact ihi
    · exact ihf

end

theorem nextChild_injective : Function.Injective nextChild := by
  intro p q h
  cases p <;> cases q <;> simp_all [nextChild]

theorem nextChild_isPrefix {p q : List Nat} (h : p <+: q) : nextChild p <+: nextChild q := by
  obtain ⟨r, rfl⟩ := h
  cases p <;> simp [nextChild]

section
variable {skips : List Nat → Bool} {t : Tree} {ts : List Tree} {steps further : List Step}

theorem trackedAt?_ofBody_nil (ts : List Tree) : (Tree.ofBody ts).trackedAt? [] = none := rfl

theorem trackedAt?_ofBody_first (t : Tree) (ts : List Tree) (path : List Nat) :
    (Tree.ofBody (t :: ts)).trackedAt? (0 :: path) = t.trackedAt? path := rfl

theorem trackedAt?_ofBody_nextChild (t : Tree) (ts : List Tree) (path : List Nat) :
    (Tree.ofBody (t :: ts)).trackedAt? (nextChild path) = (Tree.ofBody ts).trackedAt? path := by
  cases path <;> rfl

theorem isTour_nil : IsTour (.ofBody []) skips [] where
  bracketed := .nil
  entered_once := List.nodup_nil
  left_once := .nil
  entered_iff path := by
    cases path with
    | nil => simp [placesOf, trackedAt?_ofBody_nil]
    | cons i path => simp [placesOf, Tree.ofBody, Tree.trackedAt?_cons]

/-- A forest has no node of its own at the end of the empty path. -/
theorem IsTour.path_ne_nil (h : IsTour (.ofBody ts) skips steps) {step : Step} (hs : step ∈ steps) :
    step.path ≠ [] := by
  have he : step.path ∈ placesOf .enter steps := by
    obtain ⟨hook, path⟩ := step
    cases hook with
    | enter => exact mem_placesOf.mpr hs
    | leave => exact h.left_once.subset (mem_placesOf.mpr hs)
  intro e
  have ht := ((h.entered_iff _).mp he).1
  rw [e, trackedAt?_ofBody_nil] at ht
  cases ht

theorem IsTour.exists_nextChild (h : IsTour (.ofBody ts) skips steps) {path : List Nat}
    (hp : path ∈ (placesOf .enter steps).map nextChild) : ∃ j q, path = (j + 1) :: q := by
  obtain ⟨q, hq, rfl⟩ := List.mem_map.mp hp
  cases q with
  | nil => exact absurd rfl (h.path_ne_nil (mem_placesOf.mp hq))
  | cons j q => exact ⟨j, q, rfl⟩

theorem forall_above_first {p : List Nat → Prop} (h : p []) (path : List Nat) :
    (∀ q, q <+: 0 :: path → q ≠ 0 :: path → p q) ↔ ∀ q, q <+: path → q ≠ path → p (0 :: q) := by
  constructor
  · intro hq q hp hne
    apply hq
    · simpa using hp
    · simpa using hne
  · intro hq q hp hne
    cases q with
    | nil => exact h
    | cons i q =>
      obtain ⟨rfl, hp'⟩ := List.cons_prefix_cons.mp hp
      exact hq q hp' (by simpa using hne)

theorem forall_above_nextChild {p : List Nat → Prop} (h : p []) (path : List Nat) :
    (∀ q, q <+: nextChild path → q ≠ nextChild path → p q) ↔
      ∀ q, q <+: path → q ≠ path → p (nextChild q) := by
  constructor
  · intro hq q hp hne
    exact hq _ (nextChild_isPrefix hp) fun e => hne (nextChild_injective e)
  · intro hq q hp hne
    cases path with
    | nil => exact absurd (List.prefix_nil.mp hp) hne
    | cons j path =>
      cases q with
      | nil => exact h
      | cons i q =>
        obtain ⟨rfl, hp'⟩ := List.cons_prefix_cons.mp hp
        exact hq (j :: q) (by simpa using hp') (by simpa [nextChild] using hne)

theorem isTour_cons (ht : IsTour t (fun path => skips (0 :: path)) steps)
    (hts : IsTour (.ofBody ts) (fun path => skips (nextChild path)) further) :
    IsTour (.ofBody (t :: ts)) skips
      (steps.map (Step.move (0 :: ·)) ++ further.map (Step.move nextChild)) where
  bracketed :=
    (ht.bracketed.move List.cons_injective (by simp)).append
      (hts.bracketed.move nextChild_injective nextChild_isPrefix)
  entered_once := by
    rw [placesOf_append, placesOf_move, placesOf_move]
    apply List.Nodup.append
    · exact ht.entered_once.map List.cons_injective
    · exact hts.entered_once.map nextChild_injective
    · intro path hf hn
      obtain ⟨p, -, rfl⟩ := List.mem_map.mp hf
      obtain ⟨j, q, e⟩ := hts.exists_nextChild hn
      cases e
  left_once := by
    simp only [placesOf_append, placesOf_move]
    exact (ht.left_once.map _).append (hts.left_once.map _)
  entered_iff path := by
    rw [placesOf_append, placesOf_move, placesOf_move, List.mem_append]
    match path with
    | [] =>
      have h : [] ∉ (placesOf .enter further).map nextChild := by
        intro h
        obtain ⟨j, q, e⟩ := hts.exists_nextChild h
        cases e
      simp [h, trackedAt?_ofBody_nil]
    | 0 :: path =>
      have h : 0 :: path ∉ (placesOf .enter further).map nextChild := by
        intro h
        obtain ⟨j, q, e⟩ := hts.exists_nextChild h
        cases e
      rw [List.mem_map_of_injective List.cons_injective, ht.entered_iff,
        forall_above_first (by simp [trackedAt?_ofBody_nil])]
      simp [h, trackedAt?_ofBody_first]
    | (j + 1) :: path =>
      have h : nextChild (j :: path) ∉ (placesOf .enter steps).map (0 :: ·) := by simp [nextChild]
      show nextChild (j :: path) ∈ _ ∨ nextChild (j :: path) ∈ _ ↔ _
      rw [List.mem_map_of_injective nextChild_injective, hts.entered_iff]
      show _ ↔ ((Tree.ofBody (t :: ts)).trackedAt? (nextChild (j :: path))).isSome ∧
        ∀ q, q <+: nextChild (j :: path) → q ≠ nextChild (j :: path) → _
      rw [forall_above_nextChild (by simp [trackedAt?_ofBody_nil])]
      simp [h, trackedAt?_ofBody_nextChild]

/-! ## The tour of a node -/

variable {label : Label} {span : Span} {children : List Tree}

theorem IsTour.untracked (hk : label.kind? = none) (h : IsTour (.ofBody children) skips steps) :
    IsTour (.node label span children) skips steps where
  bracketed := h.bracketed
  entered_once := h.entered_once
  left_once := h.left_once
  entered_iff path := by
    simp only [Tree.trackedAt?_of_untracked span children _ hk]
    exact h.entered_iff path

theorem IsTour.skipped {kind : TrackedKind} (hk : label.kind? = some kind) (hs : skips []) :
    IsTour (.node label span children) skips [⟨.enter, []⟩, ⟨.leave, []⟩] where
  bracketed := by
    have hb : ∀ step ∈ ([] : List Step), [] <+: step.path ∧ [] ≠ step.path := by simp
    exact WellBracketed.node (fun _ => rfl) hb .nil .nil
  entered_once := by simp [placesOf]
  left_once := by simp [placesOf]
  entered_iff path := by
    have hr := Tree.tracked?_of_kind span children hk
    constructor
    · intro h
      obtain rfl : path = [] := by simpa [placesOf] using h
      refine ⟨by rw [Tree.trackedAt?_nil, hr]; rfl, ?_⟩
      intro q hp hne
      exact absurd (List.prefix_nil.mp hp) hne
    · intro ⟨_, h⟩
      by_cases hp : path = []
      · simp [placesOf, hp]
      · have := h [] List.nil_prefix (Ne.symm hp) (by rw [Tree.trackedAt?_nil, hr]; rfl)
        rw [hs] at this
        cases this

theorem IsTour.entered {kind : TrackedKind} (hk : label.kind? = some kind) (hs : skips [] = false)
    (h : IsTour (.ofBody children) skips steps) :
    IsTour (.node label span children) skips (⟨.enter, []⟩ :: (steps ++ [⟨.leave, []⟩])) := by
  have hn : [] ∉ placesOf .enter steps := by
    intro hm
    exact h.path_ne_nil (mem_placesOf.mp hm) rfl
  have he : placesOf .enter (⟨.enter, []⟩ :: (steps ++ [⟨.leave, []⟩])) =
      [] :: placesOf .enter steps := by simp [placesOf]
  have hl : placesOf .leave (⟨.enter, []⟩ :: (steps ++ [⟨.leave, []⟩])) =
      placesOf .leave steps ++ [[]] := by simp [placesOf]
  constructor
  · apply WellBracketed.node
    · simp [hs]
    · intro step hm
      exact ⟨List.nil_prefix, (h.path_ne_nil hm).symm⟩
    · exact h.bracketed
    · exact .nil
  · rw [he]
    exact List.nodup_cons.mpr ⟨hn, h.entered_once⟩
  · rw [he, hl]
    exact (List.perm_append_singleton ..).trans (h.left_once.cons _)
  · intro path
    rw [he]
    have hr := Tree.tracked?_of_kind span children hk
    cases path with
    | nil => simp [Tree.trackedAt?_nil, hr]
    | cons i path =>
      have hc : i :: path ∈ [] :: placesOf .enter steps ↔ i :: path ∈ placesOf .enter steps := by simp
      rw [hc, h.entered_iff]
      constructor
      · intro ⟨ht, hq⟩
        refine ⟨ht, ?_⟩
        intro q hp hne hqt
        cases q with
        | nil => exact hs
        | cons j q => exact hq (j :: q) hp hne hqt
      · intro ⟨ht, hq⟩
        refine ⟨ht, ?_⟩
        intro q hp hne hqt
        cases q with
        | nil => cases hqt
        | cons j q => exact hq (j :: q) hp hne hqt

mutual

theorem isTour_tour (skips : List Nat → Bool) : ∀ t : Tree, IsTour t skips (t.tour skips)
  | .node label span children => by
    rw [Script.Tree.tour]
    cases hk : label.kind? with
    | none => exact (isTour_tourAll skips children).untracked hk
    | some kind =>
      cases hs : skips [] with
      | true => simpa using IsTour.skipped hk hs
      | false => simpa using (isTour_tourAll skips children).entered hk hs

theorem isTour_tourAll (skips : List Nat → Bool) :
    ∀ ts : List Tree, IsTour (.ofBody ts) skips (tourAll skips ts)
  | [] => by
    rw [tourAll]
    exact isTour_nil
  | t :: ts => by
    rw [tourAll]
    exact isTour_cons (isTour_tour _ t) (isTour_tourAll _ ts)

end

end

/-! ## What hooks are given -/

section
variable {above : List Ancestor} {label : Label} {kind : TrackedKind} {span : Span}
  {children : List Tree}

theorem given?_nextChild (t : Tree) (ts : List Tree) (step : Step) :
    (step.move nextChild).given? (.ofBody (t :: ts)) above = step.given? (.ofBody ts) above := by
  obtain ⟨hook, path⟩ := step
  cases path <;> rfl

theorem given?_of_untracked (hk : label.kind? = none) (step : Step) :
    step.given? (.node label span children) above = step.given? (.ofBody children) above := by
  unfold Step.given?
  rw [Tree.trackedAt?_of_untracked span children _ hk, Tree.chainTo_of_untracked span children _ hk]

theorem given?_root (hk : label.kind? = some kind) (hook : Hook) :
    Step.given? (.node label span children) above ⟨hook, []⟩ =
      some (⟨kind, .node label span children⟩, above) := by
  unfold Step.given?
  rw [Tree.trackedAt?_nil, Tree.tracked?_of_kind span children hk]
  rfl

theorem given?_of_kind (hk : label.kind? = some kind) {step : Step} (hs : step.path ≠ []) :
    step.given? (.node label span children) above =
      step.given? (.ofBody children) (⟨kind, span⟩ :: above) := by
  obtain ⟨hook, path⟩ := step
  cases path with
  | nil => exact absurd rfl hs
  | cons i path =>
    unfold Step.given?
    simp only
    rw [Tree.chainTo_of_kind span children i path hk, List.reverse_cons, List.append_assoc]
    rfl

end

end NotebookCell
