import NotebookCell.Proofs.Calls

/-!
# Pruned walks

A walk that skips the nodes of some kinds is the walk through the whole tree without the events below
those nodes: what remains has its order and its chains. So the more kinds are skipped, the less is
recorded.
-/

namespace NotebookCell

open Script

/-- The node at the place is of one of the kinds. -/
def Script.Tree.ofKinds (kinds : TrackedKind → Bool) (t : Tree) (path : List Nat) : Bool :=
  (t.trackedAt? path).any fun n => kinds n.kind

def anyOf (kinds : TrackedKind → Bool) (chain : List Ancestor) : Bool := chain.any fun a => kinds a.kind

/-- What is recorded at a place of a tree that itself stands below some nodes. -/
def Step.event? (t : Tree) (above : List Ancestor) (step : Step) : Option Event :=
  (step.given? t above).map fun (n, chain) => ⟨step.hook, n.ancestor, chain⟩

/-! ## Events of a tour -/

section
variable (kinds : TrackedKind → Bool) {label : Label} {kind : TrackedKind} (span : Span)
  (children : List Tree)

theorem ofKinds_root (hk : label.kind? = some kind) :
    (Script.Tree.node label span children).ofKinds kinds [] = kinds kind := by
  unfold Tree.ofKinds
  rw [Tree.trackedAt?_nil, Tree.tracked?_of_kind span children hk]
  rfl

theorem ofKinds_of_untracked (hk : label.kind? = none) :
    (Script.Tree.node label span children).ofKinds kinds = (Tree.ofBody children).ofKinds kinds := by
  funext path
  unfold Tree.ofKinds
  rw [Tree.trackedAt?_of_untracked span children path hk]

theorem ofKinds_of_other (hk : label.kind? = some kind) (hn : kinds kind = false) :
    (Script.Tree.node label span children).ofKinds kinds = (Tree.ofBody children).ofKinds kinds := by
  funext path
  cases path with
  | nil => rw [ofKinds_root kinds span children hk, hn]; rfl
  | cons i path => rfl

theorem ofKinds_nextChild (t : Tree) (ts : List Tree) :
    (fun path => (Tree.ofBody (t :: ts)).ofKinds kinds (nextChild path)) =
      (Tree.ofBody ts).ofKinds kinds := by
  funext path
  unfold Tree.ofKinds
  rw [trackedAt?_ofBody_nextChild]

theorem ofKinds_none (t : Tree) : t.ofKinds (fun _ => false) = fun _ => false := by
  funext path
  simp [Tree.ofKinds]

end

section
variable (kinds : TrackedKind → Bool)

mutual

theorem walk_recorder : ∀ (t : Tree) (above : List Ancestor) (events : List Event),
    (recorder kinds).walk t ⟨above, events⟩ =
      ⟨above, ((t.tour (t.ofKinds kinds)).filterMap (·.event? t above)).reverse ++ events⟩
  | .node label span children, above, events => by
    cases hk : label.kind? with
    | none =>
      rw [Visitor.walk_of_untracked hk, walk_recorderAll children, Script.Tree.tour, hk,
        ofKinds_of_untracked kinds span children hk]
      simp only [Step.event?, given?_of_untracked hk]
    | some kind =>
      have hr := ofKinds_root kinds span children hk
      have he : ∀ hook, Step.event? (.node label span children) above ⟨hook, []⟩ =
          some ⟨hook, ⟨kind, span⟩, above⟩ := by
        intro hook
        unfold Step.event?
        rw [given?_root hk]
        rfl
      rw [Script.Tree.tour, hk]
      cases hn : kinds kind with
      | true =>
        rw [Visitor.walk_of_skip hk (by simp only [recorder, hn]; rfl)]
        simp [hr, hn, he, recorder, TrackedNode.ancestor, Tree.span]
      | false =>
        have hc : (tourAll ((Script.Tree.node label span children).ofKinds kinds) children).filterMap
              (·.event? (.node label span children) above) =
            (tourAll ((Tree.ofBody children).ofKinds kinds) children).filterMap
              (·.event? (.ofBody children) (⟨kind, span⟩ :: above)) := by
          rw [ofKinds_of_other kinds span children hk hn]
          apply List.filterMap_congr
          intro step hm
          unfold Step.event?
          rw [given?_of_kind hk ((isTour_tourAll _ children).path_ne_nil hm)]
        rw [Visitor.walk_of_children hk (by simp only [recorder, hn]; rfl)
          (walk_recorderAll children _ _)]
        simp [hr, hn, hc, he, recorder, TrackedNode.ancestor, Tree.span]

theorem walk_recorderAll : ∀ (ts : List Tree) (above : List Ancestor) (events : List Event),
    (recorder kinds).walkAll ts ⟨above, events⟩ =
      ⟨above, ((tourAll ((Tree.ofBody ts).ofKinds kinds) ts).filterMap
        (·.event? (.ofBody ts) above)).reverse ++ events⟩
  | [], above, events => rfl
  | t :: ts, above, events => by
    rw [Visitor.walkAll, walk_recorder t, walk_recorderAll ts, tourAll, ofKinds_nextChild,
      List.filterMap_append, List.filterMap_map, List.filterMap_map, List.reverse_append,
      List.append_assoc]
    simp only [Function.comp_def, Step.event?, given?_nextChild]
    rfl

end

theorem events_eq_filterMap (ts : List Tree) :
    events kinds ts =
      (tourAll ((Tree.ofBody ts).ofKinds kinds) ts).filterMap (·.event? (.ofBody ts) []) := by
  unfold events
  rw [walk_recorderAll]
  simp

/-! ## Pruning -/

theorem chainTo_nextChild (t : Tree) (ts : List Tree) (path : List Nat) :
    (Tree.ofBody (t :: ts)).chainTo (nextChild path) = (Tree.ofBody ts).chainTo path := by
  cases path <;> rfl

theorem anyOf_chainTo_child {label : Label} {kind : TrackedKind} {span : Span} {children : List Tree}
    (hk : label.kind? = some kind) {path : List Nat} (hp : path ≠ []) :
    anyOf kinds ((Script.Tree.node label span children).chainTo path) =
      (kinds kind || anyOf kinds ((Tree.ofBody children).chainTo path)) := by
  cases path with
  | nil => exact absurd rfl hp
  | cons i path =>
    rw [Tree.chainTo_of_kind span children i path hk]
    rfl

mutual

theorem tour_ofKinds : ∀ t : Tree, t.tour (t.ofKinds kinds) =
    (t.tour fun _ => false).filter fun step => !anyOf kinds (t.chainTo step.path)
  | .node label span children => by
    rw [Script.Tree.tour, Script.Tree.tour]
    cases hk : label.kind? with
    | none =>
      simp only [Tree.chainTo_of_untracked span children _ hk]
      rw [ofKinds_of_untracked kinds span children hk]
      exact tourAll_ofKinds children
    | some kind =>
      have hr := ofKinds_root kinds span children hk
      have hn : anyOf kinds ((Script.Tree.node label span children).chainTo []) = false := rfl
      have hf : (tourAll (fun _ => false) children).filter
            (fun step => !anyOf kinds ((Script.Tree.node label span children).chainTo step.path)) =
          if kinds kind then [] else tourAll ((Tree.ofBody children).ofKinds kinds) children := by
        rw [tourAll_ofKinds children, List.filter_congr fun step hm =>
          congrArg not (anyOf_chainTo_child kinds hk ((isTour_tourAll _ children).path_ne_nil hm))]
        cases kinds kind <;> simp
      simp only [Bool.false_eq_true, if_false, List.filter_cons, List.filter_append, hf, hn, hr]
      cases hk' : kinds kind with
      | true => simp
      | false =>
        rw [ofKinds_of_other kinds span children hk hk']
        simp

theorem tourAll_ofKinds : ∀ ts : List Tree, tourAll ((Tree.ofBody ts).ofKinds kinds) ts =
    (tourAll (fun _ => false) ts).filter fun step =>
      !anyOf kinds ((Tree.ofBody ts).chainTo step.path)
  | [] => rfl
  | t :: ts => by
    rw [tourAll, tourAll, List.filter_append, List.filter_map, List.filter_map, ofKinds_nextChild,
      tourAll_ofKinds ts]
    simp only [Function.comp_def, Step.move, chainTo_nextChild]
    congr 2
    exact tour_ofKinds t

end

/-- A chain as it is recorded has the nodes that stand above the place. -/
theorem filterMap_event? (t : Tree) (steps : List Step) :
    (steps.filter fun step => !anyOf kinds (t.chainTo step.path)).filterMap (·.event? t []) =
      (steps.filterMap (·.event? t [])).filter fun e => !anyOf kinds e.above := by
  rw [List.filterMap_filter, List.filter_filterMap]
  apply List.filterMap_congr
  intro step _
  unfold Step.event? Step.given?
  cases t.trackedAt? step.path with
  | none => simp
  | some n =>
    have hr : anyOf kinds (t.chainTo step.path).reverse = anyOf kinds (t.chainTo step.path) :=
      List.any_reverse
    cases ha : anyOf kinds (t.chainTo step.path) <;> simp [Option.filter, hr, ha]

theorem anyOf_mono {more kinds : TrackedKind → Bool} (h : ∀ kind, kinds kind → more kind)
    {chain : List Ancestor} (ha : anyOf kinds chain) : anyOf more chain := by
  obtain ⟨a, hm, hk⟩ := List.any_eq_true.mp ha
  exact List.any_eq_true.mpr ⟨a, hm, h a.kind hk⟩

/-- The walk that skips the nodes of some kinds records the events of the whole tour that have none
of these kinds above them; the chains are those of the places. The more kinds, the fewer events. -/
theorem events_eq_filter (ts : List Tree) :
    events kinds ts = (events (fun _ => false) ts).filter (fun e => !anyOf kinds e.above) ∧
    (∃ steps, IsTour (.ofBody ts) (fun _ => false) steps ∧
      steps.filterMap (·.event? (.ofBody ts) []) = events (fun _ => false) ts ∧
      (steps.filter fun step => !anyOf kinds ((Tree.ofBody ts).chainTo step.path)).filterMap
        (·.event? (.ofBody ts) []) = events kinds ts) ∧
    ∀ more : TrackedKind → Bool, (∀ kind, kinds kind → more kind) →
      (events more ts).Sublist (events kinds ts) := by
  have hall : events (fun _ => false) ts =
      (tourAll (fun _ => false) ts).filterMap (·.event? (.ofBody ts) []) := by
    rw [events_eq_filterMap, ofKinds_none]
  have hsome : ∀ kinds, events kinds ts =
      (events (fun _ => false) ts).filter fun e => !anyOf kinds e.above := by
    intro kinds
    rw [events_eq_filterMap, tourAll_ofKinds, hall]
    exact filterMap_event? kinds _ _
  refine ⟨hsome kinds, ⟨_, isTour_tourAll _ ts, hall.symm, ?_⟩, ?_⟩
  · rw [events_eq_filterMap kinds, tourAll_ofKinds]
  · intro more hm
    rw [hsome kinds, hsome more]
    apply List.monotone_filter_right
    intro e h
    cases hk : anyOf kinds e.above with
    | false => rfl
    | true =>
      rw [anyOf_mono hm hk] at h
      cases h

end

/-- Of `switchSample`, without what is in classes, and without what is in the cases of a `switch`. -/
theorem events_switchSample_sublist :
    (∀ kind : TrackedKind, (kind == .classDef) = true →
      (kind == .classDef || kind == .switchCase) = true) ∧
    (events (· == .classDef) switchSample = (events (fun _ => false) switchSample).filter
        fun e => !anyOf (· == .classDef) e.above) ∧
    (events (fun kind => kind == .classDef || kind == .switchCase) switchSample).Sublist
      (events (· == .classDef) switchSample) := by
  have hm : ∀ kind : TrackedKind, (kind == .classDef) = true →
      (kind == .classDef || kind == .switchCase) = true := by
    intro kind h
    rw [h]
    rfl
  have h := events_eq_filter (· == .classDef) switchSample
  exact ⟨hm, h.1, h.2.2 _ hm⟩

end NotebookCell
