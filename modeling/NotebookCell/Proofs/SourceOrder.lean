import NotebookCell.Proofs.CellText
import NotebookCell.Proofs.Locality
import Mathlib.Data.List.Sort

/-!
# The order of the rows

The rows of a summary should stand in the order of the identifiers that they are about. Declarations
are met in that order, and so are the names of a pattern that hold no pattern of their own. But all
of these are met before any pattern inside, so the order is kept exactly where no pattern that binds
something stands before such a name.
-/

namespace NotebookCell

open Script

/-! ## Names at their positions -/

abbrev Binding := Nat × String

abbrev PlacedRow := Nat × Definition

mutual

/-- The names that a pattern, or a part of one, binds, with their positions. -/
def boundAt : Tree → List Binding
  | .node (.name name) span _ => [(span.start, name)]
  | .node .arrayPattern _ elements => boundAtAll elements
  | .node .objectPattern _ props => boundAtAll props
  | .node .keyValue _ [_, value] => boundAt value
  | .node .initialized _ (name :: _) => boundAt name
  | .node .withDefault _ (target :: _) => boundAt target
  | .node .rest _ (target :: _) => boundAt target
  | _ => []

def boundAtAll : List Tree → List Binding
  | [] => []
  | t :: ts => boundAt t ++ boundAtAll ts

end

def placeAs (kind : DefinitionKind) (b : Binding) : PlacedRow := (b.1, ⟨b.2, kind⟩)

def targets (declarators : List Tree) : List Tree := declarators.flatMap (·.children.take 1)

/-- The rows of a declaration at the positions of their names. -/
def placedRows : Tree → List PlacedRow
  | .node (.varDecl kind) _ declarators =>
    (boundAtAll (targets declarators)).map (placeAs (.variable kind))
  | .node .funDecl _ (name :: _) => (boundAt name).map (placeAs .function)
  | .node .classDecl _ (name :: _) => (boundAt name).map (placeAs .classDef)
  | _ => []

def placedInOrder (body : List Tree) : List PlacedRow :=
  ((cellDeclarations body).flatMap placedRows).insertionSort fun a b => a.1 ≤ b.1

/-- The rows of a cell, sorted by the positions of their names. -/
def sourceOrder (body : List Tree) : List Definition := (placedInOrder body).map (·.2)

/-! ## Increasing positions -/

def increasing {α : Type} (bs : List (Nat × α)) : Prop := bs.Pairwise (·.1 < ·.1)

def apart {α : Type} (bs : List (Nat × α)) : Prop := (bs.map (·.1)).Nodup

section
variable {α : Type} {before bs cs : List (Nat × α)}

theorem increasing_append (h : ∀ b ∈ bs, ∀ c ∈ cs, b.1 < c.1) :
    increasing (bs ++ cs) ↔ increasing bs ∧ increasing cs := by
  unfold increasing
  rw [List.pairwise_append]
  exact ⟨fun ⟨hb, hc, _⟩ => ⟨hb, hc⟩, fun ⟨hb, hc⟩ => ⟨hb, hc, h⟩⟩

theorem apart_append (hb : apart bs) (hc : apart cs) (h : ∀ b ∈ bs, ∀ c ∈ cs, b.1 < c.1) :
    apart (bs ++ cs) := by
  unfold apart
  rw [List.map_append, List.nodup_append]
  refine ⟨hb, hc, ?_⟩
  intro i hi j hj
  obtain ⟨b, hb, rfl⟩ := List.mem_map.mp hi
  obtain ⟨c, hc, rfl⟩ := List.mem_map.mp hj
  exact Nat.ne_of_lt (h b hb c hc)

theorem apart_perm (h : apart bs) (hp : bs.Perm cs) : apart cs := (hp.map _).nodup_iff.mp h

/-- What stands first but is met between the others keeps these sorted only where one side is empty. -/
theorem increasing_between (h : ∀ b ∈ bs, ∀ c ∈ before ++ cs, b.1 < c.1) :
    increasing (before ++ (bs ++ cs)) ↔
      increasing bs ∧ increasing (before ++ cs) ∧ (bs = [] ∨ before = []) := by
  cases before with
  | nil =>
    rw [List.nil_append, increasing_append fun b hb c hc => h b hb c (by simpa using hc)]
    simp
  | cons c before =>
    cases bs with
    | nil => simp [increasing]
    | cons b bs =>
      refine iff_of_false (fun hs => ?_) (by simp)
      have h1 := (List.pairwise_append.mp hs).2.2 c (by simp) b (by simp)
      have h2 := h b (by simp) c (by simp)
      omega

theorem perm_rounds (plain inner plain' inner' : List (Nat × α)) :
    ((plain ++ inner) ++ (plain' ++ inner')).Perm ((plain ++ plain') ++ (inner ++ inner')) := by
  simp only [List.append_assoc]
  exact (List.perm_append_comm_assoc ..).append_left _

end

/-! ## Names before patterns -/

/-- The part binds one name, and no pattern of its own. -/
def isPlain : Tree → Bool
  | .node (.name _) _ _ => true
  | .node .keyValue _ [_, value] => isPlain value
  | .node .initialized _ (.node (.name _) _ _ :: _) => true
  | .node .withDefault _ (target :: _) => isPlain target
  | .node .rest _ (target :: _) => isPlain target
  | _ => false

mutual

/-- Nowhere in the pattern does a plain part stand behind a pattern that binds something. -/
def namesFirst : Tree → Bool
  | .node .arrayPattern _ elements => plainFirst elements
  | .node .objectPattern _ props => plainFirst props
  | .node .keyValue _ [_, value] => namesFirst value
  | .node .withDefault _ (target :: _) => namesFirst target
  | .node .rest _ (target :: _) => namesFirst target
  | _ => true

def plainFirst : List Tree → Bool
  | [] => true
  | t :: ts => namesFirst t && plainFirst ts &&
    (isPlain t || (boundAt t).isEmpty || ts.all fun u => !isPlain u)

end

def declaresInOrder : Tree → Bool
  | .node (.varDecl _) _ declarators => (targets declarators).all namesFirst
  | _ => true

/-! ## Positions -/

theorem boundAt_of_absent {t : Tree} (h : t.label = .absent) : boundAt t = [] := by
  obtain ⟨label, span, children⟩ := t
  simp only [Tree.label] at h
  subst h
  simp [boundAt]

theorem mem_boundAtAll {b : Binding} {ts : List Tree} :
    b ∈ boundAtAll ts ↔ ∃ t ∈ ts, b ∈ boundAt t := by
  induction ts with
  | nil => simp [boundAtAll]
  | cons t ts ih => simp [boundAtAll, ih]

theorem boundAtAll_append (ts us : List Tree) :
    boundAtAll (ts ++ us) = boundAtAll ts ++ boundAtAll us := by
  induction ts with
  | nil => rfl
  | cons t ts ih => simp [boundAtAll, ih]

mutual

theorem boundAt_inside {within : Span} : ∀ t : Tree, t.nestedIn within →
    ∀ b ∈ boundAt t, within.start ≤ b.1 ∧ b.1 < within.stop
  | .node label span children, h, b, hb => by
    unfold boundAt at hb
    split at hb
    · rename_i e
      cases e
      obtain ⟨h1, h2, h3, -⟩ := nestedIn_node (by simp) h
      rw [List.mem_singleton] at hb
      subst hb
      simp only [Label.lead] at h2
      omega
    · rename_i e
      cases e
      exact boundAtAll_inside _ (fun t ht => nestedIn_of_mem_children (by simp) h ht) b hb
    · rename_i e
      cases e
      exact boundAtAll_inside _ (fun t ht => nestedIn_of_mem_children (by simp) h ht) b hb
    · rename_i e
      cases e
      exact boundAt_inside _ (nestedIn_of_mem_children (by simp) h (by simp)) b hb
    · rename_i e
      cases e
      exact boundAt_inside _ (nestedIn_of_mem_children (by simp) h (by simp)) b hb
    · rename_i e
      cases e
      exact boundAt_inside _ (nestedIn_of_mem_children (by simp) h (by simp)) b hb
    · rename_i e
      cases e
      exact boundAt_inside _ (nestedIn_of_mem_children (by simp) h (by simp)) b hb
    · cases hb

theorem boundAtAll_inside {within : Span} : ∀ ts : List Tree, (∀ t ∈ ts, t.nestedIn within) →
    ∀ b ∈ boundAtAll ts, within.start ≤ b.1 ∧ b.1 < within.stop
  | [], _, _, hb => nomatch hb
  | t :: ts, h, b, hb => by
    rcases List.mem_append.mp hb with hb | hb
    · exact boundAt_inside t (h t (by simp)) b hb
    · exact boundAtAll_inside ts (fun u hu => h u (by simp [hu])) b hb

end

theorem boundAt_inside_span {within : Span} {t : Tree} (h : t.nestedIn within) {b : Binding}
    (hb : b ∈ boundAt t) : t.label ≠ .absent ∧ t.span.start ≤ b.1 ∧ b.1 < t.span.stop := by
  have hl : t.label ≠ .absent := by
    intro hl
    rw [boundAt_of_absent hl] at hb
    cases hb
  exact ⟨hl, boundAt_inside t (nestedIn_self hl h) b hb⟩

theorem boundAt_lt {within : Span} {t u : Tree} (ht : t.nestedIn within) (hu : u.nestedIn within)
    (h : t.isBefore u) {b c : Binding} (hb : b ∈ boundAt t) (hc : c ∈ boundAt u) : b.1 < c.1 := by
  obtain ⟨hlt, -, h1⟩ := boundAt_inside_span ht hb
  obtain ⟨hlu, h2, -⟩ := boundAt_inside_span hu hc
  rw [isBefore_iff hlt hlu] at h
  omega

theorem boundAt_lt_all {within : Span} {t : Tree} {ts : List Tree} (h : ∀ u ∈ t :: ts, u.nestedIn within)
    (hb : ∀ u ∈ ts, t.isBefore u) : ∀ b ∈ boundAt t, ∀ c ∈ boundAtAll ts, b.1 < c.1 := by
  intro b hb' c hc
  obtain ⟨u, hu, hc⟩ := mem_boundAtAll.mp hc
  exact boundAt_lt (h t (by simp)) (h u (by simp [hu])) (hb u hu) hb' hc

/-! ## Patterns -/

theorem boundAt_ne_nil {t : Tree} (h : isPlain t) : boundAt t ≠ [] := by
  fun_induction isPlain t <;> simp_all [boundAt]

def plainBound (t : Tree) : List Binding := if isPlain t then boundAt t else []

def innerBound (t : Tree) : List Binding := if isPlain t then [] else boundAt t

theorem plainBound_of_isPlain {t : Tree} (h : isPlain t) : plainBound t = boundAt t := by
  simp [plainBound, h]

theorem innerBound_of_isPlain {t : Tree} (h : isPlain t) : innerBound t = [] := by
  simp [innerBound, h]

theorem plainBound_of_not {t : Tree} (h : isPlain t = false) : plainBound t = [] := by
  simp [plainBound, h]

theorem innerBound_of_not {t : Tree} (h : isPlain t = false) : innerBound t = boundAt t := by
  simp [innerBound, h]

def rowOf (kind : VarKind) (b : Binding) : Definition := ⟨b.2, .variable kind⟩

/-- The rows of `p` are those of plain parts, the rows of `q` those of patterns inside, and their
positions increase exactly under the condition. -/
structure Meets (kind : VarKind) (p q : Published) (plain inner : List Binding) (ordered : Bool) :
    Prop where
  plain_eq : p.defs = plain.map (rowOf kind)
  exists_inner : ∃ met : List Binding, q.defs = met.map (rowOf kind) ∧ met.Perm inner ∧
    apart (plain ++ met) ∧ (increasing (plain ++ met) ↔ ordered)

theorem plainBound_append_innerBound (t : Tree) : plainBound t ++ innerBound t = boundAt t := by
  unfold plainBound innerBound
  split <;> simp

theorem perm_boundAtAll (ts : List Tree) :
    (ts.flatMap plainBound ++ ts.flatMap innerBound).Perm (boundAtAll ts) := by
  induction ts with
  | nil => rfl
  | cons t ts ih =>
    rw [boundAtAll, ← plainBound_append_innerBound, List.flatMap_cons, List.flatMap_cons]
    simp only [List.append_assoc]
    refine List.Perm.append_left _ ?_
    exact (List.perm_append_comm_assoc ..).trans (ih.append_left _)

section
variable {kind : VarKind} {p q p' q' : Published} {t : Tree} {ts : List Tree}

theorem plainBound_eq_nil_iff :
    ts.flatMap plainBound = [] ↔ ∀ u ∈ ts, isPlain u = false := by
  rw [List.flatMap_eq_nil_iff]
  constructor
  · intro hn u hu
    by_contra hp
    have hp : isPlain u = true := by simpa using hp
    exact boundAt_ne_nil hp (by rw [← plainBound_of_isPlain hp, hn u hu])
  · intro hn u hu
    exact plainBound_of_not (hn u hu)

theorem Meets.nil : Meets kind .none .none [] [] true :=
  ⟨rfl, [], rfl, .nil, .nil, by simp [increasing]⟩

/-- A part around another one that binds the same names. -/
theorem Meets.around {u : Tree} (h : Meets kind p q (plainBound t) (innerBound t) (namesFirst t))
    (hp : isPlain u = isPlain t) (hb : boundAt u = boundAt t) (ho : namesFirst u = namesFirst t) :
    Meets kind p q (plainBound u) (innerBound u) (namesFirst u) := by
  unfold plainBound innerBound at h ⊢
  rw [hp, hb, ho]
  exact h

/-- The names that a list of parts binds are met in two rounds, so a pattern that is not the last
to be met before a plain part comes too late. -/
theorem Meets.cons (ht : Meets kind p q (plainBound t) (innerBound t) (namesFirst t))
    (hts : Meets kind p' q' (ts.flatMap plainBound) (ts.flatMap innerBound) (plainFirst ts))
    (hlt : ∀ b ∈ boundAt t, ∀ c ∈ boundAtAll ts, b.1 < c.1) :
    Meets kind (p ++ p') (q ++ q') ((t :: ts).flatMap plainBound) ((t :: ts).flatMap innerBound)
      (plainFirst (t :: ts)) := by
  obtain ⟨met, hq, hm, ha, ho⟩ := ht.exists_inner
  obtain ⟨met', hq', hm', ha', ho'⟩ := hts.exists_inner
  have hone : ∀ b ∈ plainBound t ++ met, b ∈ boundAt t := by
    intro b hb
    rw [← plainBound_append_innerBound]
    exact (hm.append_left _).mem_iff.mp hb
  have hrest : ∀ c ∈ ts.flatMap plainBound ++ met', c ∈ boundAtAll ts := fun c hc =>
    (perm_boundAtAll ts).mem_iff.mp ((hm'.append_left _).mem_iff.mp hc)
  rw [List.flatMap_cons]
  refine ⟨?_, met ++ met', ?_, ?_, ?_, ?_⟩
  · simp [ht.plain_eq, hts.plain_eq]
  · simp [hq, hq']
  · simpa using hm.append hm'
  · exact apart_perm (apart_append ha ha' fun b hb c hc => hlt b (hone b hb) c (hrest c hc))
      (perm_rounds ..)
  · clear ha ha'
    cases hp : isPlain t with
    | true =>
      rw [innerBound_of_isPlain hp] at hm
      rw [plainBound_of_isPlain hp] at ho ⊢
      obtain rfl := hm.eq_nil
      rw [List.append_nil] at ho
      rw [List.nil_append, List.append_assoc,
        increasing_append fun b hb c hc => hlt b hb c (hrest c hc), ho, ho']
      simp [plainFirst, hp]
    | false =>
      rw [innerBound_of_not hp] at hm
      rw [plainBound_of_not hp] at ho ⊢
      rw [List.nil_append] at ho ⊢
      have hmet : met = [] ↔ boundAt t = [] :=
        ⟨fun h => (h ▸ hm).nil_eq.symm, fun h => (h ▸ hm).eq_nil⟩
      rw [increasing_between fun b hb c hc => hlt b (hm.mem_iff.mp hb) c (hrest c hc), ho, ho', hmet,
        plainBound_eq_nil_iff]
      simp [plainFirst, hp, and_assoc]

end

/-- The rows of `p` are those of the names, in an order of their own. -/
def MeetsAll (kind : VarKind) (p : Published) (bound : List Binding) (ordered : Bool) : Prop :=
  ∃ met : List Binding, p.defs = met.map (rowOf kind) ∧ met.Perm bound ∧ apart met ∧
    (increasing met ↔ ordered)

theorem Meets.all {kind : VarKind} {p q : Published} {plain inner : List Binding} {ordered : Bool}
    (h : Meets kind p q plain inner ordered) : MeetsAll kind (p ++ q) (plain ++ inner) ordered := by
  obtain ⟨met, hq, hm, ho⟩ := h.exists_inner
  exact ⟨plain ++ met, by simp [h.plain_eq, hq], hm.append_left _, ho⟩

theorem MeetsAll.perm {kind : VarKind} {p : Published} {bound bound' : List Binding} {ordered : Bool}
    (h : MeetsAll kind p bound ordered) (hb : bound.Perm bound') : MeetsAll kind p bound' ordered := by
  obtain ⟨met, hp, hm, ho⟩ := h
  exact ⟨met, hp, hm.trans hb, ho⟩

/-- The names of a pattern are all inner to what the pattern is a part of. -/
theorem Meets.pattern {kind : VarKind} {p q : Published} {ts : List Tree} {ordered : Bool}
    (h : Meets kind p q (ts.flatMap plainBound) (ts.flatMap innerBound) ordered) :
    Meets kind .none (p ++ q) [] (boundAtAll ts) ordered :=
  ⟨rfl, h.all.perm (perm_boundAtAll ts)⟩

section
variable (G : String) (kind : VarKind) {within : Span}

mutual

theorem meets_target : ∀ t : Tree, t.fits .target → t.nestedIn within → t.spreads →
    Meets kind (publishTarget G kind t) (publishPattern G kind t) (plainBound t) (innerBound t)
      (namesFirst t)
  | .node label span children, hf, hn, hs => by
    simp only [Tree.fits, Tree.spreads, Bool.and_eq_true] at hf hs
    cases label with
    | arrayPattern =>
      have hc := meets_elements children hf.2
        (fun t ht => nestedIn_of_mem_children (by simp) hn ht) (by simpa [Label.namesPart, Label.isReordered] using hs.1) hs.2
      simpa [publishTarget, publishPattern, plainBound, innerBound, isPlain, boundAt, namesFirst]
        using hc.pattern
    | objectPattern =>
      have hc := meets_properties children hf.2
        (fun t ht => nestedIn_of_mem_children (by simp) hn ht) (by simpa [Label.namesPart, Label.isReordered] using hs.1) hs.2
      simpa [publishTarget, publishPattern, plainBound, innerBound, isPlain, boundAt, namesFirst]
        using hc.pattern
    | withDefault =>
      obtain ⟨target, value, rfl, ht, -⟩ := fitsAll_pair hf.2
      have hc := meets_target target ht (nestedIn_of_mem_children (by simp) hn (by simp))
        (spreads_of_mem hs.2 (by simp))
      rw [publishTarget, publishPattern]
      exact hc.around (by rw [isPlain]) (by rw [boundAt]) (by rw [namesFirst])
    | rest =>
      obtain ⟨target, rfl, ht⟩ := fitsAll_singleton hf.2
      have hc := meets_target target ht (nestedIn_of_mem_children (by simp) hn (by simp))
        (spreads_of_mem hs.2 (by simp))
      rw [publishTarget, publishPattern]
      exact hc.around (by rw [isPlain]) (by rw [boundAt]) (by rw [namesFirst])
    | keyValue => simp [Part.allows, Label.isTarget, Label.isExpression] at hf
    | initialized => simp [Part.allows, Label.isTarget, Label.isExpression] at hf
    | name name => exact ⟨rfl, [], rfl, .nil, by simp [plainBound, isPlain, boundAt, apart],
      by simp [plainBound, isPlain, boundAt, namesFirst, increasing]⟩
    | _ =>
      simpa [publishTarget, publishPattern, plainBound, innerBound, isPlain, boundAt, namesFirst]
        using Meets.nil

theorem meets_elements : ∀ ts : List Tree, fitsAll (List.replicate ts.length (.optional .target)) ts →
    (∀ t ∈ ts, t.nestedIn within) → inOrder ts → spreadsAll ts →
    Meets kind (Published.all (publishTarget G kind) ts) (publishPatterns G kind ts)
      (ts.flatMap plainBound) (ts.flatMap innerBound) (plainFirst ts)
  | [], _, _, _, _ => .nil
  | t :: ts, hf, hn, ho, hs => by
    simp only [List.length_cons, List.replicate_succ, fitsAll, spreadsAll, Bool.and_eq_true] at hf hs
    obtain ⟨hbefore, ho⟩ := inOrder_cons.mp ho
    have ht := meets_target t (fits_target_of_optional hf.1) (hn t (by simp)) hs.1
    have hts := meets_elements ts hf.2 (fun u hu => hn u (by simp [hu])) ho hs.2
    exact ht.cons hts (boundAt_lt_all hn hbefore)

theorem meets_properties : ∀ ts : List Tree, fitsAll (List.replicate ts.length .patternProperty) ts →
    (∀ t ∈ ts, t.nestedIn within) → inOrder ts → spreadsAll ts →
    Meets kind (Published.all (publishProperty G kind) ts) (publishPatternsOf G kind ts)
      (ts.flatMap plainBound) (ts.flatMap innerBound) (plainFirst ts)
  | [], _, _, _, _ => .nil
  | t :: ts, hf, hn, ho, hs => by
    simp only [List.length_cons, List.replicate_succ, fitsAll, spreadsAll, Bool.and_eq_true] at hf hs
    obtain ⟨hbefore, ho⟩ := inOrder_cons.mp ho
    rw [publishPatternsOf_cons]
    have ht := meets_property t hf.1 (hn t (by simp)) hs.1
    have hts := meets_properties ts hf.2 (fun u hu => hn u (by simp [hu])) ho hs.2
    exact ht.cons hts (boundAt_lt_all hn hbefore)

theorem meets_property : ∀ t : Tree, t.fits .patternProperty → t.nestedIn within → t.spreads →
    Meets kind (publishProperty G kind t) (publishPatternsOf G kind [t]) (plainBound t) (innerBound t)
      (namesFirst t)
  | .node label span children, hf, hn, hs => by
    simp only [Tree.fits, Tree.spreads, Bool.and_eq_true] at hf hs
    cases label with
    | keyValue =>
      obtain ⟨key, value, rfl, -, hv⟩ := fitsAll_pair hf.2
      have hc := meets_target value hv (nestedIn_of_mem_children (by simp) hn (by simp))
        (spreads_of_mem hs.2 (by simp))
      simp only [publishProperty, publishPatternsOf, Published.append_none]
      exact hc.around (by rw [isPlain]) (by rw [boundAt]) (by rw [namesFirst])
    | initialized =>
      obtain ⟨target, rest, rfl, hname, -⟩ := fitsAll_of_cons hf.2
      obtain ⟨name, span, rfl⟩ := eq_name_of_fits hname
      exact ⟨rfl, [], rfl, .nil, by simp [plainBound, isPlain, boundAt, apart],
      by simp [plainBound, isPlain, boundAt, namesFirst, increasing]⟩
    | rest =>
      obtain ⟨target, rfl, ht⟩ := fitsAll_singleton hf.2
      have hc := meets_target target ht (nestedIn_of_mem_children (by simp) hn (by simp))
        (spreads_of_mem hs.2 (by simp))
      simp only [publishProperty, publishPatternsOf, Published.append_none]
      exact hc.around (by rw [isPlain]) (by rw [boundAt]) (by rw [namesFirst])
    | _ => simp [Part.allows] at hf

end

/-! ## Declarations -/

theorem meetsAll_declarator (form : DeclarationForm) {d : Tree} (hf : d.fits .declarator)
    (hn : d.nestedIn within) (hs : d.spreads) :
    MeetsAll kind (publishDeclarator G kind form d) (boundAtAll (targets [d]))
        ((targets [d]).all namesFirst) ∧
      ∀ b ∈ boundAtAll (targets [d]), d.span.start ≤ b.1 ∧ b.1 < d.span.stop := by
  obtain ⟨label, span, children⟩ := d
  simp only [Tree.fits, Tree.spreads, Part.allows, Bool.and_eq_true, beq_iff_eq] at hf hs
  obtain ⟨rfl, hf⟩ := hf
  obtain ⟨target, init, rfl, ht, -⟩ := fitsAll_pair hf
  have hself := nestedIn_self (by simp [Tree.label]) hn
  have htn : target.nestedIn span := nestedIn_of_mem_children (by simp) hself (by simp)
  have hm := meets_target G kind target ht htn (spreads_of_mem hs.2 (by simp))
  simp only [targets, List.flatMap_cons, List.flatMap_nil, Tree.children, List.take, List.append_nil,
    boundAtAll, List.all_cons, List.all_nil, Bool.and_true]
  refine ⟨?_, boundAt_inside target htn⟩
  obtain ⟨met, hp, hperm, ho⟩ := hm.all
  refine ⟨met, ?_, ?_, ho⟩
  · simpa [publishDeclarator] using hp
  · rwa [plainBound_append_innerBound] at hperm

theorem targets_cons (d : Tree) (ds : List Tree) : targets (d :: ds) = targets [d] ++ targets ds := by
  simp [targets]

theorem mem_boundAtAll_targets {b : Binding} {ds : List Tree} (h : b ∈ boundAtAll (targets ds)) :
    ∃ d ∈ ds, b ∈ boundAtAll (targets [d]) := by
  obtain ⟨t, ht, hb⟩ := mem_boundAtAll.mp h
  obtain ⟨d, hd, ht⟩ := List.mem_flatMap.mp ht
  exact ⟨d, hd, mem_boundAtAll.mpr ⟨t, by simpa [targets] using ht, hb⟩⟩

theorem meetsAll_declarators (form : DeclarationForm) : ∀ ds : List Tree,
    fitsAll (List.replicate ds.length .declarator) ds → (∀ d ∈ ds, d.nestedIn within) → inOrder ds →
    spreadsAll ds →
    MeetsAll kind (Published.all (publishDeclarator G kind form) ds) (boundAtAll (targets ds))
      ((targets ds).all namesFirst)
  | [], _, _, _, _ => ⟨[], rfl, .nil, .nil, by simp [increasing, targets]⟩
  | d :: ds, hf, hn, ho, hs => by
    simp only [List.length_cons, List.replicate_succ, fitsAll, Bool.and_eq_true] at hf
    obtain ⟨hbefore, ho⟩ := inOrder_cons.mp ho
    simp only [spreadsAll, Bool.and_eq_true] at hs
    obtain ⟨⟨met, hp, hm, ha, hord⟩, hin⟩ :=
      meetsAll_declarator G kind form hf.1 (hn d (by simp)) hs.1
    obtain ⟨met', hp', hm', ha', hord'⟩ :=
      meetsAll_declarators form ds hf.2 (fun e he => hn e (by simp [he])) ho hs.2
    have hlt : ∀ b ∈ met, ∀ c ∈ met', b.1 < c.1 := by
      intro b hb c hc
      obtain ⟨e, he, hc⟩ := mem_boundAtAll_targets (hm'.mem_iff.mp hc)
      have hfe := fits_of_mem hf.2 he
      have h1 := hin b (hm.mem_iff.mp hb)
      have h2 := (meetsAll_declarator G kind form hfe (hn e (by simp [he]))
        (spreads_of_mem hs.2 he)).2 c hc
      have h3 := hbefore e he
      rw [isBefore_iff (label_ne_absent_of_fits hf.1 rfl) (label_ne_absent_of_fits hfe rfl)] at h3
      omega
    rw [targets_cons]
    refine ⟨met ++ met', by simp [hp, hp'], ?_, apart_append ha ha' hlt, ?_⟩
    · rw [boundAtAll_append]
      exact hm.append hm'
    · rw [increasing_append hlt, hord, hord']
      simp

end

/-! ## Statements -/

/-- The rows are those of the declarations, and their positions increase exactly where each of the
declarations has its names first. -/
structure Places (p : Published) (ds : List Tree) (rows : List PlacedRow) : Prop where
  defs : p.defs = rows.map (·.2)
  perm : rows.Perm (ds.flatMap placedRows)
  apart : apart rows
  increasing_iff : increasing rows ↔ ∀ d ∈ ds, declaresInOrder d

namespace Places

variable {p q : Published} {ds es : List Tree} {rows rows' : List PlacedRow}

theorem none : Places .none [] [] := ⟨rfl, .nil, .nil, by simp [increasing]⟩

theorem append (hp : Places p ds rows) (hq : Places q es rows')
    (h : ∀ b ∈ rows, ∀ c ∈ rows', b.1 < c.1) : Places (p ++ q) (ds ++ es) (rows ++ rows') where
  defs := by simp [hp.defs, hq.defs]
  perm := by simpa using hp.perm.append hq.perm
  apart := apart_append hp.apart hq.apart h
  increasing_iff := by
    rw [increasing_append h, hp.increasing_iff, hq.increasing_iff, List.forall_mem_append]

theorem perm_declarations (h : Places p ds rows) (he : ds.Perm es) : Places p es rows where
  defs := h.defs
  perm := h.perm.trans (he.flatMap_right placedRows)
  apart := h.apart
  increasing_iff := by
    rw [h.increasing_iff]
    simp only [he.mem_iff]

theorem exists_of_mem (h : Places p ds rows) {b : PlacedRow} (hb : b ∈ rows) :
    ∃ d ∈ ds, b ∈ placedRows d :=
  List.mem_flatMap.mp (h.perm.mem_iff.mp hb)

end Places

theorem placedRows_inside {within : Span} {d : Tree} {part : Part} (hf : d.fits part)
    (hd : d.label.isDeclaration) (hn : d.nestedIn within) {b : PlacedRow} (hb : b ∈ placedRows d) :
    within.start ≤ b.1 ∧ b.1 < within.stop := by
  obtain ⟨label, span, children⟩ := d
  simp only [Tree.fits, Bool.and_eq_true] at hf
  have hchild : ∀ t ∈ children, t.nestedIn within := fun t ht =>
    nestedIn_of_mem_children (label_ne_absent hd) hn ht
  cases label with
  | varDecl kind =>
    obtain ⟨c, hc, rfl⟩ := List.mem_map.mp hb
    refine boundAtAll_inside (targets children) (fun t ht => ?_) c hc
    obtain ⟨e, he, ht⟩ := List.mem_flatMap.mp ht
    have hl := label_ne_absent_of_fits (fits_of_mem hf.2 he) rfl
    obtain ⟨label, span, parts⟩ := e
    exact nestedIn_of_mem_children hl (hchild _ he) (List.mem_of_mem_take ht)
  | funDecl =>
    obtain ⟨target, fn, rfl, -⟩ := fitsAll_pair hf.2
    obtain ⟨c, hc, rfl⟩ := List.mem_map.mp hb
    exact boundAt_inside target (hchild target (by simp)) c hc
  | classDecl =>
    obtain ⟨target, cls, rfl, -⟩ := fitsAll_pair hf.2
    obtain ⟨c, hc, rfl⟩ := List.mem_map.mp hb
    exact boundAt_inside target (hchild target (by simp)) c hc
  | _ => cases hd

section
variable (G : String) {within : Span}

theorem places_varDecl (kind : VarKind) (form : DeclarationForm) (span : Span) {ds : List Tree}
    (hf : fitsAll (List.replicate ds.length .declarator) ds) (hn : ∀ d ∈ ds, d.nestedIn within)
    (ho : inOrder ds) (hs : spreadsAll ds) :
    ∃ rows, Places (publishDeclaration G kind form span ds) [.node (.varDecl kind) span ds] rows := by
  obtain ⟨met, hp, hm, ha, hord⟩ := meetsAll_declarators G kind form ds hf hn ho hs
  refine ⟨met.map (placeAs (.variable kind)), ?_, ?_, ?_, ?_⟩
  · simp only [publishDeclaration, Published.defs_append, Published.defs_ofEdits, hp]
    simp [Function.comp_def, placeAs, rowOf]
  · simpa [placedRows] using hm.map (placeAs (.variable kind))
  · simpa [apart, Function.comp_def, placeAs] using ha
  · unfold increasing
    rw [List.pairwise_map]
    simpa [declaresInOrder, placeAs, increasing] using hord

theorem places_declaration {label : Label} {span : Span} {children : List Tree} {part : Part}
    (hl : label.isDeclaration) (hf : (Script.Tree.node label span children).fits part)
    (hn : (Script.Tree.node label span children).nestedIn within)
    (hs : (Script.Tree.node label span children).spreads) (place : Place) :
    ∃ rows, Places (publish G place (.node label span children))
      ([.node label span children].filter (publishedAt place)) rows := by
  simp only [Tree.fits, Tree.spreads, Bool.and_eq_true] at hf hs
  cases label with
  | funDecl =>
    obtain ⟨target, fn, rfl, hname, -⟩ := fitsAll_pair hf.2
    obtain ⟨name, nameSpan, rfl⟩ := eq_name_of_fits hname
    exact ⟨[(nameSpan.start, ⟨name, .function⟩)], rfl, .refl _, by simp [apart],
      by simp [publishedAt, isHoisted, Tree.label, declaresInOrder, increasing]⟩
  | classDecl =>
    obtain ⟨target, cls, rfl, hname, -⟩ := fitsAll_pair hf.2
    obtain ⟨name, nameSpan, rfl⟩ := eq_name_of_fits hname
    by_cases hp : place = .body
    · rw [publish, if_pos hp, hp]
      exact ⟨[(nameSpan.start, ⟨name, .classDef⟩)], rfl, .refl _, by simp [apart],
        by simp [publishedAt, isHoisted, isLexical, Tree.label, declaresInOrder, increasing]⟩
    · exact ⟨[], by simpa [publish, publishedAt, isHoisted, isLexical, Tree.label, hp] using Places.none⟩
  | varDecl kind =>
    have hc : ∀ d ∈ children, d.nestedIn within := fun d hd =>
      nestedIn_of_mem_children (by simp) hn hd
    have ho : inOrder children := hs.1
    rcases publish_varDecl G place kind span children with ⟨hp, he⟩ | ⟨hp, he⟩
    · obtain ⟨rows, hd⟩ := places_varDecl G kind _ span hf.2 hc ho hs.2
      exact ⟨rows, by simpa [he, hp] using hd⟩
    · exact ⟨[], by simpa [he, hp] using Places.none⟩
  | _ => cases hl

/-- Declarations of the second node stand behind those of the first. -/
def Follows (t u : Tree) : Prop := (outerNodes t).filter isHoisted = [] ∨ t.isBefore u

theorem isDeclaration_of_isHoisted {d : Tree} (h : isHoisted d) : d.label.isDeclaration := by
  obtain ⟨label, span, children⟩ := d
  cases label <;> first | rfl | cases h

theorem row_inside {t d : Tree} {part : Part} (hf : t.fits part) (hn : t.nestedIn within) (hs : t.spreads)
    (hm : d ∈ outerNodes t) (hd : d.label.isDeclaration) {b : PlacedRow} (hb : b ∈ placedRows d) :
    t.label ≠ .absent ∧ t.span.start ≤ b.1 ∧ b.1 < t.span.stop := by
  obtain ⟨⟨q, hq⟩, -⟩ := fits_of_mem_outerNodes t hf hs hm
  have hl := (nestedIn_of_mem_outerNodes (label_ne_absent hd) t hf hn hm).1
  have hdn := (nestedIn_of_mem_outerNodes (label_ne_absent hd) t hf (nestedIn_self hl hn) hm).2
  exact ⟨hl, placedRows_inside hq hd hdn hb⟩

theorem row_lt {t u d e : Tree} {part part' : Part} (hf : t.fits part) (hf' : u.fits part')
    (hn : t.nestedIn within) (hn' : u.nestedIn within) (hs : t.spreads) (hs' : u.spreads)
    (h : t.isBefore u) (hd : d ∈ outerNodes t) (hd' : d.label.isDeclaration) (he : e ∈ outerNodes u)
    (he' : e.label.isDeclaration) : ∀ b ∈ placedRows d, ∀ c ∈ placedRows e, b.1 < c.1 := by
  intro b hb c hc
  obtain ⟨ht, -, h1⟩ := row_inside hf hn hs hd hd' hb
  obtain ⟨hu, h2, -⟩ := row_inside hf' hn' hs' he he' hc
  rw [isBefore_iff ht hu] at h
  omega

theorem follows_children {label : Label} {span : Span} {children : List Tree} (hl : label.opensScope = false)
    (hf : fitsAll (label.parts children.length) children)
    (hs : (Script.Tree.node label span children).spreads) : children.Pairwise Follows := by
  have hnone : ∀ part : Part, part.isInner → ∀ t : Tree, t.fits part →
      (outerNodes t).filter isHoisted = [] := by
    intro part hp t ht
    rw [List.filter_eq_nil_iff]
    intro d hd
    simp [isHoisted_eq_false (not_isDeclaration_of_mem_outerNodes t hp ht d hd)]
  simp only [Tree.spreads, Bool.and_eq_true, Bool.or_eq_true] at hs
  cases hn : label.namesPart with
  | true =>
    have hall := filter_outerNodesOf_eq_nil (Label.isInner_parts_of_namesPart hn _) hf
    refine List.pairwise_of_forall_mem_list fun t ht u _ => .inl ?_
    rw [List.filter_eq_nil_iff] at hall ⊢
    exact fun d hd => hall d (mem_outerNodesOf.mpr ⟨t, ht, hd⟩)
  | false =>
    cases hr : label.isReordered with
    | true =>
      cases label with
      | doWhile =>
        obtain ⟨test, body, rfl, ht, -⟩ := fitsAll_pair hf
        have hf : Follows test body := .inl (hnone _ rfl test ht)
        simpa using hf
      | classDef => exact absurd hl (by decide)
      | _ => cases hr
    | false =>
      have ho : inOrder children := by simpa [hn, hr] using hs.1
      clear hs hf
      induction children with
      | nil => exact .nil
      | cons t ts ih =>
        obtain ⟨ht, ho⟩ := inOrder_cons.mp ho
        exact .cons (fun u hu => .inr (ht u hu)) (ih ho)

mutual

theorem places_inner : ∀ (t : Tree) {part : Part} {place : Place}, t.fits part → t.nestedIn within →
    t.spreads → place ≠ .body →
    ∃ rows, Places (publish G place t) ((outerNodes t).filter isHoisted) rows
  | .node label span children, part, place, hf, hn, hs, hp => by
    cases hd : label.isDeclaration with
    | true =>
      have h := places_declaration G hd hf hn hs place
      simp only [Tree.fits, Bool.and_eq_true] at hf
      rwa [publishedAt_of_ne_body hp, ← filter_outerNodes_declaration hd hf.2] at h
    | false =>
      simp only [Tree.fits, Bool.and_eq_true] at hf
      rw [publish_of_not_isDeclaration G hd, outerNodes]
      cases hsc : label.opensScope with
      | true => exact ⟨[], .none⟩
      | false =>
        have hh : isHoisted (.node label span children) = false := isHoisted_eq_false hd
        simp only [if_false, List.filter_cons, hh, Bool.false_eq_true]
        by_cases ha : label = .absent
        · subst ha
          rw [fitsAll_nil hf.2]
          exact ⟨[], .none⟩
        · have hspread := hs
          simp only [Tree.spreads, Bool.and_eq_true] at hspread
          exact places_all children _ hf.2 (fun t ht => nestedIn_of_mem_children ha hn ht)
            (fun t ht => spreads_of_mem hspread.2 ht) (follows_children hsc hf.2 hs)
            (by cases label <;> simp [firstPlace])

theorem places_all : ∀ (ts : List Tree) {parts : List Part} (first : Place), fitsAll parts ts →
    (∀ t ∈ ts, t.nestedIn within) → (∀ t ∈ ts, t.spreads) → ts.Pairwise Follows → first ≠ .body →
    ∃ rows, Places (publishFrom G first ts) ((outerNodesOf ts).filter isHoisted) rows
  | [], _, _, _, _, _, _, _ => ⟨[], .none⟩
  | t :: ts, parts, first, hf, hn, hs, ho, hp => by
    obtain ⟨part, rest, rfl, hft, hfts⟩ := fitsAll_cons hf
    obtain ⟨hfollows, ho⟩ := List.pairwise_cons.mp ho
    obtain ⟨rows, ht⟩ := places_inner t hft (hn t (by simp)) (hs t (by simp)) hp
    obtain ⟨rows', hts⟩ := places_all ts .inner hfts (fun u hu => hn u (by simp [hu]))
      (fun u hu => hs u (by simp [hu])) ho (by simp)
    rw [publishFrom, outerNodesOf, List.filter_append]
    refine ⟨rows ++ rows', ht.append hts fun b hb c hc => ?_⟩
    obtain ⟨d, hd, hb⟩ := ht.exists_of_mem hb
    obtain ⟨e, he, hc⟩ := hts.exists_of_mem hc
    obtain ⟨he, he'⟩ := List.mem_filter.mp he
    obtain ⟨u, hu, he⟩ := mem_outerNodesOf.mp he
    obtain ⟨part', hfu⟩ := exists_fits_of_mem hfts hu
    rcases hfollows u hu with hnone | hbefore
    · rw [hnone] at hd
      cases hd
    · obtain ⟨hd, hd'⟩ := List.mem_filter.mp hd
      exact row_lt hft hfu (hn t (by simp)) (hn u (by simp [hu])) (hs t (by simp)) (hs u (by simp [hu]))
        hbefore hd (isDeclaration_of_isHoisted hd') he (isDeclaration_of_isHoisted he') b hb c hc

end

theorem places_element {t : Tree} (hf : t.fits .statement) (hn : t.nestedIn within) (hs : t.spreads) :
    ∃ rows, Places (publish G .body t) ((outerNodes t).filter isHoisted ++ [t].filter isLexical) rows := by
  cases hd : t.label.isDeclaration with
  | true =>
    obtain ⟨label, span, children⟩ := t
    have hl : label.isDeclaration := hd
    have h := places_declaration G hl hf hn hs .body
    simp only [Tree.fits, Bool.and_eq_true] at hf
    rwa [filter_publishedAt_body hd, ← filter_outerNodes_declaration hl hf.2] at h
  | false =>
    obtain ⟨he, hl⟩ := publish_body_of_not_isDeclaration G hd
    rw [he, hl, List.append_nil]
    exact places_inner G t hf hn hs (by simp)

theorem mem_outerNodes_of_mem_cellDeclarations {body : List Tree} {d : Tree}
    (hd : d ∈ cellDeclarations body) : d.label.isDeclaration ∧ ∃ t ∈ body, d ∈ outerNodes t := by
  obtain ⟨t, ht, hm, -⟩ := exists_of_mem_cellDeclarations hd
  exact ⟨isDeclaration_of_mem_cellDeclarations hd, t, ht, hm⟩

theorem places_body : ∀ body : List Tree, (∀ t ∈ body, t.fits .statement) →
    (∀ t ∈ body, t.nestedIn within) → (∀ t ∈ body, t.spreads) → inOrder body →
    ∃ rows, Places (publishBody G body) (cellDeclarations body) rows
  | [], _, _, _, _ => ⟨[], .none⟩
  | t :: ts, hf, hn, hs, ho => by
    obtain ⟨hbefore, ho⟩ := inOrder_cons.mp ho
    obtain ⟨rows, ht⟩ := places_element G (hf t (by simp)) (hn t (by simp)) (hs t (by simp))
    obtain ⟨rows', hts⟩ := places_body ts (fun u hu => hf u (by simp [hu]))
      (fun u hu => hn u (by simp [hu])) (fun u hu => hs u (by simp [hu])) ho
    have ht : Places (publish G .body t) (cellDeclarations [t]) rows := by
      simpa [cellDeclarations, outerNodesOf] using ht
    refine ⟨rows ++ rows', (ht.append hts fun b hb c hc => ?_).perm_declarations
      (cellDeclarations_cons t ts)⟩
    obtain ⟨d, hd, hb⟩ := ht.exists_of_mem hb
    obtain ⟨e, he, hc⟩ := hts.exists_of_mem hc
    obtain ⟨hd', v, hv, hdv⟩ := mem_outerNodes_of_mem_cellDeclarations hd
    obtain rfl := List.mem_singleton.mp hv
    obtain ⟨he', u, hu, heu⟩ := mem_outerNodes_of_mem_cellDeclarations he
    exact row_lt (hf v (by simp)) (hf u (by simp [hu])) (hn v (by simp)) (hn u (by simp [hu]))
      (hs v (by simp)) (hs u (by simp [hu])) (hbefore u hu) hdv hd' heu he' b hb c hc

end

/-! ## Cells -/

theorem perm_placedInOrder (body : List Tree) :
    (placedInOrder body).Perm ((cellDeclarations body).flatMap placedRows) :=
  List.perm_insertionSort _ _

theorem pairwise_placedInOrder (body : List Tree) : (placedInOrder body).Pairwise (·.1 ≤ ·.1) := by
  have : Std.Total fun a b : PlacedRow => a.1 ≤ b.1 := ⟨fun a b => Nat.le_total a.1 b.1⟩
  have : IsTrans PlacedRow fun a b => a.1 ≤ b.1 := ⟨fun _ _ _ => Nat.le_trans⟩
  exact List.pairwise_insertionSort _ _

theorem eq_of_map_eq {α β : Type} {f : α → β} {l l' : List α} (hp : l.Perm l') (hn : (l.map f).Nodup)
    (h : l.map f = l'.map f) : l = l' := by
  refine List.ext_getElem hp.length_eq fun i hi hi' => ?_
  refine List.inj_on_of_nodup_map hn (List.getElem_mem hi) (hp.mem_iff.mpr (List.getElem_mem hi')) ?_
  have := List.getElem_of_eq h (by simpa using hi)
  simpa using this

section
variable {body : List Tree} {rows : List PlacedRow}
  (hp : rows.Perm ((cellDeclarations body).flatMap placedRows))
include hp

theorem eq_placedInOrder_of_increasing (h : increasing rows) : rows = placedInOrder body := by
  have hperm := hp.trans (perm_placedInOrder body).symm
  refine List.Perm.eq_of_pairwise ?_ (h.imp Nat.le_of_lt) (pairwise_placedInOrder body) hperm
  intro a b ha hb hab hba
  have hn : (rows.map (·.1)).Nodup := List.pairwise_map.mpr (h.imp Nat.ne_of_lt)
  exact List.inj_on_of_nodup_map hn ha (hperm.mem_iff.mpr hb) (Nat.le_antisymm hab hba)

theorem increasing_of_names_eq (ha : apart rows) (hn : (rows.map (·.2.name)).Nodup)
    (h : rows.map (·.2.name) = (sourceOrder body).map (·.name)) : increasing rows := by
  rw [sourceOrder, List.map_map] at h
  have he : rows = placedInOrder body :=
    eq_of_map_eq (hp.trans (perm_placedInOrder body).symm) hn h
  have hle := pairwise_placedInOrder body
  rw [← he] at hle
  exact (hle.and (List.pairwise_map.mp ha)).imp fun h => Nat.lt_of_le_of_ne h.1 h.2

end

/-- A cell where no pattern stands before a name next to it lists its names in the order of the
text, and only such a cell does, unless a name is listed twice. -/
theorem CellRun.defs_eq_sourceOrder {o : ValidOptions} {cell : String} {r : AsyncCell}
    (run : CellRun o cell r) (h : run.WellRead) (ho : inOrder run.body)
    (hs : ∀ t ∈ run.body, t.spreads) :
    r.summary.defs.Perm (sourceOrder run.body) ∧
    ((∀ d ∈ cellDeclarations run.body, declaresInOrder d) → r.summary.defs = sourceOrder run.body) ∧
    (r.summary.globals.Nodup → r.summary.globals = (sourceOrder run.body).map (·.name) →
      ∀ d ∈ cellDeclarations run.body, declaresInOrder d) := by
  obtain ⟨draft, -, hr⟩ := AwaitingCell.publish_eq_ok.mp run.publish_eq
  obtain ⟨rows, hrows⟩ := places_body run.awaiting.globalParam run.body h.fits h.nested hs ho
  have hdefs : r.summary.defs = rows.map (·.2) := by
    rw [hr]
    exact hrows.defs
  have hglobals : r.summary.globals = rows.map (·.2.name) := by
    simp [Summary.globals, hdefs, Function.comp_def]
  refine ⟨?_, fun hd => ?_, fun hn he => ?_⟩
  · rw [hdefs]
    exact (hrows.perm.trans (perm_placedInOrder run.body).symm).map _
  · rw [hdefs, eq_placedInOrder_of_increasing hrows.perm (hrows.increasing_iff.mpr hd), sourceOrder]
  · rw [hglobals] at hn he
    exact hrows.increasing_iff.mp (increasing_of_names_eq hrows.perm hrows.apart hn he)

/-- The pattern inside comes last. -/
def orderedCell : String := "let {a, b: [c]} = d\nvar e"

theorem defs_orderedCell : ∃ (r : AsyncCell) (run : CellRun sampleOptions orderedCell r),
    run.WellRead ∧ inOrder run.body ∧ (∀ t ∈ run.body, t.spreads) ∧
    (∀ d ∈ cellDeclarations run.body, declaresInOrder d) ∧ r.summary.defs = sourceOrder run.body := by
  obtain ⟨r, run, hq⟩ := @exists_cellRun sampleOptions orderedCell
    (fun m c body _ => readsWell orderedCell m c body && inOrder body && body.all Tree.spreads &&
      (cellDeclarations body).all declaresInOrder) (by decide +kernel)
  simp only [Bool.and_eq_true, List.all_eq_true] at hq
  obtain ⟨⟨⟨hread, ho⟩, hs⟩, hd⟩ := hq
  have h := run.wellRead_of_readsWell hread
  exact ⟨r, run, h, ho, hs, hd, (run.defs_eq_sourceOrder h ho hs).2.1 hd⟩

/-- The names of the pattern inside come last. -/
def patternCell : String := "let {a: [b], c} = x"

theorem defs_patternCell_ne : ∃ (r : AsyncCell) (run : CellRun sampleOptions patternCell r),
    r.summary.defs ≠ sourceOrder run.body ∧ r.summary.globals = ["c", "b"] ∧
      (sourceOrder run.body).map (·.name) = ["b", "c"] := by
  obtain ⟨r, run, h⟩ := @exists_cellRun sampleOptions patternCell
    (fun _ _ body r => r.summary.globals == ["c", "b"] && (sourceOrder body).map (·.name) == ["b", "c"])
    (by decide +kernel)
  simp only [Bool.and_eq_true, beq_iff_eq] at h
  obtain ⟨hg, hq⟩ := h
  refine ⟨r, run, fun he => ?_, hg, hq⟩
  rw [Summary.globals, he, hq] at hg
  revert hg
  decide

end NotebookCell
