import NotebookCell.Proofs.Grammar
import NotebookCell.Proofs.Tours

/-!
# The calls of a visitor

Whatever a visitor answers, and whatever it has seen before, its calls are made along a tour. At each
place the chain is what is tracked above it, so that a declaration of a body has a chain of one
exactly if it is an element of the body.
-/

namespace NotebookCell

open Script

/-! ## Calls -/

/-- A call of a hook. -/
structure Call where
  hook : Hook
  node : TrackedNode
  above : List Ancestor
  /-- what `enter` answered -/
  answer : Option Descent

def Step.answer (skips : List Nat → Bool) (step : Step) : Option Descent :=
  match step.hook with
  | .enter => some (if skips step.path then .skip else .children)
  | .leave => none

def Step.call? (t : Tree) (skips : List Nat → Bool) (above : List Ancestor) (step : Step) :
    Option Call :=
  (step.given? t above).map fun (n, chain) => ⟨step.hook, n, chain, step.answer skips⟩

namespace Visitor

variable {σ : Type}

/-- Does what the visitor does, and writes down all calls. -/
def logged (v : Visitor σ) : Visitor (σ × List Call) where
  enter n above s :=
    let (answer, r) := v.enter n above s.1
    (answer, r, s.2 ++ [⟨.enter, n, above, some answer⟩])
  leave n above s := (v.leave n above s.1, s.2 ++ [⟨.leave, n, above, none⟩])

theorem logged_enter {v : Visitor σ} {n : TrackedNode} {above : List Ancestor} {s r : σ}
    {answer : Descent} (h : v.enter n above s = (answer, r)) (log : List Call) :
    v.logged.enter n above (s, log) = (answer, r, log ++ [⟨.enter, n, above, some answer⟩]) := by
  simp only [logged, h]

theorem logged_leave (v : Visitor σ) (n : TrackedNode) (above : List Ancestor) (s : σ)
    (log : List Call) : v.logged.leave n above (s, log) = (v.leave n above s, log ++ [⟨.leave, n, above, none⟩]) := rfl

/-- The calls of a walk, the first one first. -/
def calls (v : Visitor σ) (t : Tree) (s : σ) : List Call :=
  (v.logged.walk t ⟨[], (s, [])⟩).state.2

end Visitor

/-- What is skipped in a tree, and in those behind it. -/
def skipsBeside (first further : List Nat → Bool) : List Nat → Bool
  | [] => false
  | 0 :: path => first path
  | (i + 1) :: path => further (i :: path)

theorem skipsBeside_nextChild {first further : List Nat → Bool} (h : further [] = false) :
    (fun path => skipsBeside first further (nextChild path)) = further := by
  funext path
  cases path with
  | nil => exact h.symm
  | cons i path => rfl

theorem call?_first {first further : List Nat → Bool} {chain : List Ancestor} (t : Tree)
    (ts : List Tree) (step : Step) :
    (step.move (0 :: ·)).call? (.ofBody (t :: ts)) (skipsBeside first further) chain =
      step.call? t first chain := rfl

theorem call?_nextChild {first further : List Nat → Bool} {chain : List Ancestor} (t : Tree)
    (ts : List Tree) (step : Step) :
    (step.move nextChild).call? (.ofBody (t :: ts)) (skipsBeside first further) chain =
      step.call? (.ofBody ts) further chain := by
  obtain ⟨hook, path⟩ := step
  cases path <;> rfl

section
variable {σ : Type} (v : Visitor σ)

/-- Written down or not, the calls leave the walker where it was, and they are those of a tour. -/
structure Logs (plain : Walker σ → Walker σ) (logged : Walker (σ × List Call) → Walker (σ × List Call))
    (chain : List Ancestor) (s r : σ) (calls : List Call) : Prop where
  plain_eq : plain ⟨chain, s⟩ = ⟨chain, r⟩
  logged_eq : ∀ log, logged ⟨chain, (s, log)⟩ = ⟨chain, (r, log ++ calls)⟩

mutual

theorem exists_logs_walk : ∀ (t : Tree) (chain : List Ancestor) (s : σ),
    ∃ (skips : List Nat → Bool) (r : σ) (calls : List Call),
      Logs (v.walk t) (v.logged.walk t) chain s r calls ∧
      (t.tour skips).map (·.call? t skips chain) = calls.map some
  | .node label span children, chain, s => by
    cases hk : label.kind? with
    | none =>
      obtain ⟨skips, r, calls, -, hw, hc⟩ := exists_logs_walkAll children chain s
      refine ⟨skips, r, calls, ⟨?_, ?_⟩, ?_⟩
      · rw [Visitor.walk_of_untracked hk, hw.plain_eq]
      · intro log
        rw [Visitor.walk_of_untracked hk, hw.logged_eq]
      · rw [Script.Tree.tour, hk]
        simpa only [Step.call?, given?_of_untracked hk] using hc
    | some kind =>
      let n : TrackedNode := ⟨kind, .node label span children⟩
      generalize he : v.enter n chain s = entered
      obtain ⟨answer, s₁⟩ := entered
      cases answer with
      | skip =>
        refine ⟨fun _ => true, _, [⟨.enter, n, chain, some .skip⟩, ⟨.leave, n, chain, none⟩],
          ⟨Visitor.walk_of_skip hk he, ?_⟩, ?_⟩
        · intro log
          rw [Visitor.walk_of_skip hk (Visitor.logged_enter he log), Visitor.logged_leave,
            List.append_assoc]
          rfl
        · rw [Script.Tree.tour, hk]
          simp [Step.call?, given?_root hk, Step.answer, n]
      | children =>
        obtain ⟨skips, r, calls, hs, hw, hc⟩ := exists_logs_walkAll children (⟨kind, span⟩ :: chain) s₁
        refine ⟨skips, _,
          ⟨.enter, n, chain, some .children⟩ :: (calls ++ [⟨.leave, n, chain, none⟩]),
          ⟨Visitor.walk_of_children hk he hw.plain_eq, ?_⟩, ?_⟩
        · intro log
          rw [Visitor.walk_of_children hk (Visitor.logged_enter he log) (hw.logged_eq _),
            Visitor.logged_leave]
          simp [n]
        · rw [Script.Tree.tour, hk]
          have hi : (tourAll skips children).map (·.call? (.node label span children) skips chain) =
              calls.map some := by
            rw [← hc]
            apply List.map_congr_left
            intro step hm
            unfold Step.call?
            rw [given?_of_kind hk ((isTour_tourAll skips children).path_ne_nil hm)]
          have hr : ∀ hook, Step.call? (.node label span children) skips chain ⟨hook, []⟩ =
              some ⟨hook, n, chain, Step.answer skips ⟨hook, []⟩⟩ := by
            intro hook
            unfold Step.call?
            rw [given?_root hk]
            rfl
          simp [hs, hi, hr, Step.answer]

theorem exists_logs_walkAll : ∀ (ts : List Tree) (chain : List Ancestor) (s : σ),
    ∃ (skips : List Nat → Bool) (r : σ) (calls : List Call), skips [] = false ∧
      Logs (v.walkAll ts) (v.logged.walkAll ts) chain s r calls ∧
      (tourAll skips ts).map (·.call? (.ofBody ts) skips chain) = calls.map some
  | [], chain, s => ⟨fun _ => false, s, [], rfl, ⟨rfl, fun log => by simp [Visitor.walkAll]⟩, rfl⟩
  | t :: ts, chain, s => by
    obtain ⟨first, r₁, calls₁, hw₁, hc₁⟩ := exists_logs_walk t chain s
    obtain ⟨further, r₂, calls₂, hf, hw₂, hc₂⟩ := exists_logs_walkAll ts chain r₁
    refine ⟨skipsBeside first further, r₂, calls₁ ++ calls₂, rfl, ⟨?_, ?_⟩, ?_⟩
    · rw [Visitor.walkAll, hw₁.plain_eq, hw₂.plain_eq]
    · intro log
      rw [Visitor.walkAll, hw₁.logged_eq, hw₂.logged_eq, List.append_assoc]
    · rw [tourAll, skipsBeside_nextChild hf, List.map_append, List.map_append, ← hc₁, ← hc₂]
      simp only [List.map_map, Function.comp_def, call?_first, call?_nextChild]
      rfl

end

/-- A walk ends with the chain that it began with, and writing down its calls does not change it. -/
theorem walk_logged (t : Tree) (chain : List Ancestor) (s : σ) :
    (v.walk t ⟨chain, s⟩).chain = chain ∧
      (v.logged.walk t ⟨chain, (s, [])⟩).state.1 = (v.walk t ⟨chain, s⟩).state := by
  obtain ⟨skips, r, calls, hw, -⟩ := exists_logs_walk v t chain s
  rw [hw.plain_eq, hw.logged_eq]
  exact ⟨rfl, rfl⟩

theorem exists_tour_calls (t : Tree) (s : σ) : ∃ skips : List Nat → Bool,
    (t.tour skips).map (·.call? t skips []) = (v.calls t s).map some := by
  obtain ⟨skips, r, calls, hw, hc⟩ := exists_logs_walk v t [] s
  refine ⟨skips, ?_⟩
  unfold Visitor.calls
  rw [hc, hw.logged_eq]
  rfl

end

/-! ## Declarations of a body -/

theorem fits_child {parts : List Part} {ts : List Tree} (h : fitsAll parts ts) {i : Nat} {c : Tree}
    (hc : ts[i]? = some c) : ∃ part ∈ parts, c.fits part := by
  induction ts generalizing parts i with
  | nil => cases hc
  | cons t ts ih =>
    obtain ⟨part, rest, rfl, ht, hts⟩ := fitsAll_cons h
    cases i with
    | zero =>
      obtain rfl : t = c := by simpa using hc
      exact ⟨part, by simp, ht⟩
    | succ i =>
      obtain ⟨q, hq, hf⟩ := ih hts (by simpa using hc)
      exact ⟨q, List.mem_cons_of_mem _ hq, hf⟩

namespace Script.Tree

theorem chainTo_ofBody {ts : List Tree} {t : Tree} {i : Nat} (h : ts[i]? = some t) (path : List Nat) :
    (ofBody ts).chainTo (i :: path) = t.chainTo path := by
  rw [chainTo]
  simp [ofBody, Tree.children, h, tracked?, Tree.label, Label.kind?]

theorem chainTo_eq_nil {t c : Tree} {i : Nat} {path : List Nat} (hc : t.children[i]? = some c)
    (h : t.chainTo (i :: path) = []) : t.label.kind? = none ∧ c.chainTo path = [] := by
  rw [chainTo, hc] at h
  simpa [tracked?] using h

/-- What is in an expression, a pattern or a declarator, and below nothing that is tracked, is in no
function, class or accessor, so that it is no declaration. -/
theorem isInner_of_chainTo {d : Tree} : ∀ (path : List Nat) {t : Tree} {part : Part}, part.isInner →
    t.fits part → t.at? path = some d → t.chainTo path = [] → d.label.isInner
  | [], .node label span children, part, hp, hf, hd, _ => by
    obtain rfl : Script.Tree.node label span children = d := by simpa [at?] using hd
    simp only [Tree.fits, Bool.and_eq_true] at hf
    exact Part.isInner_of_allows hp hf.1
  | i :: path, .node label span children, part, hp, hf, hd, hn => by
    obtain ⟨c, hc, hd⟩ := Option.bind_eq_some_iff.mp hd
    obtain ⟨hk, hn⟩ := chainTo_eq_nil hc hn
    simp only [Tree.fits, Bool.and_eq_true] at hf
    have hs : label.opensScope = false := by
      have hk : label.kind? = none := hk
      simp [Label.opensScope, hk]
    obtain ⟨q, hq, hcf⟩ := fits_child hf.2 hc
    exact isInner_of_chainTo path
      (Label.isInner_parts (Part.isInner_of_allows hp hf.1) hs _ q hq) hcf hd hn

end Script.Tree

theorem Script.Label.isInner_or_clause {label : Label} (h : label.isStatement)
    (hk : label.kind? = none) (count : Nat) :
    ∀ part ∈ label.parts count, part.isInner ∨ part = .clause := by
  cases label <;> simp_all [Label.isStatement, Label.kind?, Label.parts, Part.isInner]

theorem Script.Label.isDeclaration_of_kind {label : Label}
    (h : label.kind? = some .varDecl ∨ label.kind? = some .classDecl) : label.isDeclaration := by
  cases label with
  | varDecl kind => rfl
  | classDecl => rfl
  | expr form => cases hf : form.isOperandOnly <;> simp [Label.kind?, hf] at h
  | _ => simp [Label.kind?] at h

/-- Whatever part of a statement holds a declaration is tracked, or the tracked part of one that is
not. -/
theorem chainTo_ne_nil_of_isDeclaration {t d : Tree} {i : Nat} {path : List Nat}
    (hf : t.fits .statement) (hd : t.at? (i :: path) = some d) (hl : d.label.isDeclaration) :
    t.chainTo (i :: path) ≠ [] := by
  intro hn
  obtain ⟨label, span, children⟩ := t
  obtain ⟨c, hc, hd⟩ := Option.bind_eq_some_iff.mp hd
  obtain ⟨hk, hn⟩ := Tree.chainTo_eq_nil hc hn
  simp only [Tree.fits, Part.allows, Bool.and_eq_true] at hf
  obtain ⟨part, hp, hcf⟩ := fits_child hf.2 hc
  rcases Label.isInner_or_clause hf.1 hk _ part hp with hi | rfl
  · have h := Tree.isInner_of_chainTo path hi hcf hd hn
    rw [Label.isInner_eq_false hl] at h
    cases h
  · obtain ⟨label, span, children⟩ := c
    simp only [Tree.fits, Part.allows, Bool.and_eq_true, beq_iff_eq] at hcf
    obtain ⟨rfl, -⟩ := hcf
    cases path with
    | nil =>
      obtain rfl : Script.Tree.node .case span children = d := by simpa [Tree.at?] using hd
      cases hl
    | cons j path =>
      obtain ⟨b, hb, -⟩ := Option.bind_eq_some_iff.mp hd
      have := (Tree.chainTo_eq_nil hb hn).1
      cases this

theorem length_chainTo_eq_one_iff {span : Span} {body : List Tree} {d : Tree} {path : List Nat}
    (hf : ∀ t ∈ body, t.fits .statement) (hd : (Script.Tree.node .block span body).at? path = some d)
    (hl : d.label.isDeclaration) :
    ((Script.Tree.node .block span body).chainTo path).length = 1 ↔
      ∃ i, path = [i] ∧ body[i]? = some d := by
  cases path with
  | nil =>
    obtain rfl : Script.Tree.node .block span body = d := by simpa [Tree.at?] using hd
    cases hl
  | cons i path =>
    obtain ⟨t, ht, hd⟩ := Option.bind_eq_some_iff.mp hd
    have ht : body[i]? = some t := ht
    rw [Tree.chainTo_of_kind span body i path rfl, Tree.chainTo_ofBody ht]
    cases path with
    | nil =>
      obtain rfl : t = d := by simpa [Tree.at?] using hd
      simp [Tree.chainTo, ht]
    | cons j path =>
      have hn := chainTo_ne_nil_of_isDeclaration (hf t (List.mem_of_getElem? ht)) hd hl
      simp [hn]

/-- The calls of a walk make a tour, whatever the visitor answers, and no chain is left over. In the
body of a cell the variable and class declarations with a chain of one are the elements. -/
theorem calls_make_tour {σ : Type} (v : Visitor σ) (t : Tree) (s : σ) :
    (v.walk t ⟨[], s⟩).chain = [] ∧
    (v.logged.walk t ⟨[], (s, [])⟩).state.1 = (v.walk t ⟨[], s⟩).state ∧
    ∃ (skips : List Nat → Bool) (steps : List Step),
      steps.map (·.call? t skips []) = (v.calls t s).map some ∧ IsTour t skips steps ∧
      ∀ span body, t = .node .block span body → (∀ u ∈ body, u.fits .statement) →
        ∀ step ∈ steps, ∀ call, step.call? t skips [] = some call →
          call.node.kind = .varDecl ∨ call.node.kind = .classDecl →
            (call.above.length = 1 ↔ ∃ i, step.path = [i] ∧ body[i]? = some call.node.tree) := by
  obtain ⟨skips, hc⟩ := exists_tour_calls v t s
  obtain ⟨hw, hl⟩ := walk_logged v t [] s
  refine ⟨hw, hl, skips, t.tour skips, hc, isTour_tour skips t, ?_⟩
  rintro span body rfl hf step - call hs hk
  obtain ⟨given, hg, rfl⟩ := Option.map_eq_some_iff.mp hs
  obtain ⟨n, hn, rfl⟩ := Option.map_eq_some_iff.mp hg
  obtain ⟨d, hd, hn⟩ := Option.bind_eq_some_iff.mp hn
  obtain ⟨kind, hkind, rfl⟩ := Option.map_eq_some_iff.mp hn
  have hdecl : d.label.isDeclaration := by
    apply Label.isDeclaration_of_kind
    rcases hk with rfl | rfl
    · exact .inl hkind
    · exact .inr hkind
  simpa using length_chainTo_eq_one_iff hf hd hdecl

/-- `switch (a) { case b: class C {} }` and `let d` behind it. -/
def switchSample : List Tree :=
  [.node .switch ⟨0, 34⟩ [.node (.reference "a") ⟨8, 9⟩ [],
     .node .case ⟨13, 32⟩ [.node (.reference "b") ⟨18, 19⟩ [],
       .node .classDecl ⟨21, 31⟩ [.node (.name "C") ⟨27, 28⟩ [], .node .classDef ⟨21, 31⟩ [.absent]]]],
   .node (.varDecl .block) ⟨35, 40⟩ [.node .declarator ⟨39, 40⟩
     [.node (.name "d") ⟨39, 40⟩ [], .absent]]]

theorem calls_switchSample_make_tour :
    (∀ u ∈ switchSample, u.fits .statement) ∧
    ∃ (skips : List Nat → Bool) (steps : List Step),
      steps.map (·.call? (.node .block ⟨0, 40⟩ switchSample) skips []) =
        ((recorder TrackedKind.opensScope).calls (.node .block ⟨0, 40⟩ switchSample) []).map some ∧
      IsTour (.node .block ⟨0, 40⟩ switchSample) skips steps ∧
      ∀ step ∈ steps, ∀ call,
        step.call? (.node .block ⟨0, 40⟩ switchSample) skips [] = some call →
        call.node.kind = .varDecl ∨ call.node.kind = .classDecl →
          (call.above.length = 1 ↔ ∃ i, step.path = [i] ∧ switchSample[i]? = some call.node.tree) := by
  have hf : ∀ u ∈ switchSample, u.fits .statement := by decide
  obtain ⟨-, -, skips, steps, hc, ht, hd⟩ :=
    calls_make_tour (recorder TrackedKind.opensScope) (.node .block ⟨0, 40⟩ switchSample) []
  exact ⟨hf, skips, steps, hc, ht, hd _ _ rfl hf⟩

end NotebookCell
