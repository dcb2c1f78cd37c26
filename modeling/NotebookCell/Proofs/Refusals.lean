import NotebookCell.Proofs.ImportsInTurn
import NotebookCell.Script.Parse

/-!
# Refused modules

A module is refused for an export declaration or for an `import.meta`, wherever it stands, and for
nothing else. The refusal depends on the module alone, names positions of the cell, and comes before
any work is done.
-/

namespace NotebookCell

open Script

/-- `s` is `t` or stands below it, in functions and classes too. -/
inductive Script.Tree.Within (s : Tree) : Tree → Prop where
  | self : Within s s
  | inside {label : Label} {span : Span} {children : List Tree} {t : Tree} (ht : t ∈ children)
      (h : Within s t) : Within s (.node label span children)

def Script.ModuleItem.IsExport (item : ModuleItem) : Prop :=
  ∃ span children, item = .exportDecl span children

/-- An `import.meta` of the module. -/
def Script.Module.HasImportMeta (m : Module) (t : Tree) : Prop :=
  t.Within m.tree ∧ t.label = .expr .importMeta

/-- What a module is refused for, and where. The first export declaration comes before any
`import.meta`. -/
inductive Refuses (m : Module) : (construct : String) → (position : Nat) → Prop where
  | exportDeclaration {before after : List ModuleItem} {span : Span} {children : List Tree}
      (hitems : m.items = before ++ .exportDecl span children :: after)
      (hbefore : ∀ item ∈ before, ¬item.IsExport) : Refuses m "export declaration" span.start
  | importMeta {t : Tree} (hitems : ∀ item ∈ m.items, ¬item.IsExport) (ht : m.HasImportMeta t) :
      Refuses m "import.meta" t.span.start

/-! ## The search through a tree -/

mutual

theorem Script.Tree.mem_nodes_iff {s : Tree} : ∀ {t : Tree}, s ∈ t.nodes ↔ s.Within t
  | .node label span children => by
    rw [Tree.nodes, List.mem_cons, mem_nodesOf_iff]
    constructor
    · rintro (rfl | ⟨t, ht, hs⟩)
      · exact .self
      · exact .inside ht hs
    · intro h
      cases h with
      | self => exact .inl rfl
      | inside ht hs => exact .inr ⟨_, ht, hs⟩

theorem Script.Tree.mem_nodesOf_iff {s : Tree} : ∀ {ts : List Tree},
    s ∈ Tree.nodesOf ts ↔ ∃ t ∈ ts, s.Within t
  | [] => by simp [Tree.nodesOf]
  | t :: ts => by
    rw [Tree.nodesOf, List.mem_append, mem_nodes_iff, mem_nodesOf_iff]
    simp

end

theorem importMeta?_eq_none_iff {t : Tree} :
    t.importMeta? = none ↔ ∀ s : Tree, s.Within t → s.label ≠ .expr .importMeta := by
  simp [Tree.importMeta?, Tree.mem_nodes_iff]

theorem exists_of_importMeta? {t : Tree} {span : Span} (h : t.importMeta? = some span) :
    ∃ s : Tree, s.Within t ∧ s.label = .expr .importMeta ∧ s.span = span := by
  obtain ⟨s, hs, hspan⟩ := Option.map_eq_some_iff.mp h
  refine ⟨s, Tree.mem_nodes_iff.mp (List.mem_of_find?_eq_some hs), ?_, hspan⟩
  simpa using List.find?_some hs

/-! ## The search through the items -/

theorem exportPosition?_eq_some_iff {item : ModuleItem} {position : Nat} :
    item.exportPosition? = some position ↔
      ∃ span children, item = .exportDecl span children ∧ span.start = position := by
  cases item <;> simp [ModuleItem.exportPosition?]

theorem exportPosition?_eq_none_iff {item : ModuleItem} :
    item.exportPosition? = none ↔ ¬item.IsExport := by
  cases item <;> simp [ModuleItem.exportPosition?, ModuleItem.IsExport]

theorem findSome?_exportPosition?_eq_none_iff {items : List ModuleItem} :
    items.findSome? ModuleItem.exportPosition? = none ↔ ∀ item ∈ items, ¬item.IsExport := by
  simp only [List.findSome?_eq_none_iff, exportPosition?_eq_none_iff]

/-! ## Refusals -/

section
variable {m : Module} {u : Unsupported}

theorem refuses_of_unsupported? (h : unsupported? m = some u) :
    Refuses m u.construct.name u.position := by
  unfold unsupported? at h
  cases hexport : m.items.findSome? ModuleItem.exportPosition? with
  | some position =>
    rw [hexport] at h
    cases h
    obtain ⟨before, item, after, hitems, hitem, hbefore⟩ := List.findSome?_eq_some_iff.mp hexport
    obtain ⟨span, children, rfl, rfl⟩ := exportPosition?_eq_some_iff.mp hitem
    exact .exportDeclaration hitems fun item hi => exportPosition?_eq_none_iff.mp (hbefore item hi)
  | none =>
    rw [hexport] at h
    obtain ⟨span, hmeta, rfl⟩ := Option.map_eq_some_iff.mp h
    obtain ⟨t, ht, hlabel, rfl⟩ := exists_of_importMeta? hmeta
    exact .importMeta (findSome?_exportPosition?_eq_none_iff.mp hexport) ⟨ht, hlabel⟩

theorem unsupported?_eq_none_iff : unsupported? m = none ↔
    (∀ item ∈ m.items, ¬item.IsExport) ∧ ∀ t, ¬m.HasImportMeta t := by
  have hmeta : m.tree.importMeta? = none ↔ ∀ t, ¬m.HasImportMeta t := by
    simp only [importMeta?_eq_none_iff, Module.HasImportMeta, not_and, ne_eq]
  unfold unsupported?
  cases hexport : m.items.findSome? ModuleItem.exportPosition? with
  | some position =>
    have hsome : ¬∀ item ∈ m.items, ¬item.IsExport := by
      rw [← findSome?_exportPosition?_eq_none_iff, hexport]
      simp
    simp [hsome]
  | none =>
    rw [findSome?_exportPosition?_eq_none_iff] at hexport
    simp only [Option.map_eq_none_iff, hmeta]
    exact ⟨fun h => ⟨hexport, h⟩, fun h => h.2⟩

theorem exists_unsupported?_iff : (∃ u, unsupported? m = some u) ↔
    (∃ item ∈ m.items, item.IsExport) ∨ ∃ t, m.HasImportMeta t := by
  rw [← Option.ne_none_iff_exists', Ne, unsupported?_eq_none_iff, Classical.not_and_iff_not_or_not]
  simp only [not_forall, not_not, exists_prop]

theorem ImportSite.awaited_eq_error_iff {site : ImportSite} :
    site.awaited m = .error u ↔ unsupported? m = some u := by
  unfold ImportSite.awaited
  cases unsupported? m <;> simp

/-- Among the failures of awaiting the imports, a refusal is told from an edit that left the text. -/
theorem ImportSite.apply_refused_iff {site : ImportSite} :
    site.apply m = .error (.unsupported u) ↔ unsupported? m = some u := by
  rw [apply, bind_eq_error]
  constructor
  · rintro (h | ⟨r, -, h⟩)
    · obtain ⟨u', hu', heq⟩ := mapError_eq_error.mp h
      cases heq
      exact awaited_eq_error_iff.mp hu'
    · rcases bind_eq_error.mp h with h | ⟨draft, -, h⟩
      · obtain ⟨f, -, hf⟩ := mapError_eq_error.mp h
        cases hf
      · cases h
  · intro h
    exact .inl (mapError_eq_error.mpr ⟨u, awaited_eq_error_iff.mpr h, rfl⟩)

end

/-- Once work has begun nothing is refused any more. -/
theorem ImportWork.exchangeAll_ne_unsupported (base : Nat) (importParam : String) (u : Unsupported) :
    ∀ (ds : List ImportDecl) (done : Nat) (w : ImportWork),
      (ImportWork.exchangeAll base importParam ds done w).1 ≠ .error (.unsupported u)
  | [], done, w => by simp [exchangeAll]
  | d :: ds, done, w => by
    rw [exchangeAll]
    split
    · exact exchangeAll_ne_unsupported base importParam u ds _ _
    · simp

theorem ImportWork.awaitImports_refused_iff {m : Module} {u : Unsupported} {w : ImportWork}
    {base : Nat} {importParam : String} :
    (w.awaitImports base importParam m).1 = .error (.unsupported u) ↔ unsupported? m = some u := by
  unfold awaitImports
  cases unsupported? m with
  | some u' => simp
  | none => simp [exchangeAll_ne_unsupported]

/-- Awaiting the imports of a module is refused exactly where it has an export declaration or an
`import.meta`. What the refusal names is a matter of the module alone, whatever draft is worked on
and wherever the module stands in it, and the work is left as it was. -/
theorem awaited_refused_exactly (m : Module) (site : ImportSite) (w : ImportWork) :
    ((∃ u, site.awaited m = .error u) ↔
      (∃ item ∈ m.items, item.IsExport) ∨ ∃ t, m.HasImportMeta t) ∧
    ∀ u, (site.awaited m = .error u ↔ site.apply m = .error (.unsupported u)) ∧
      (site.awaited m = .error u ↔
        (w.awaitImports site.base site.importParam m).1 = .error (.unsupported u)) ∧
      (site.awaited m = .error u → Refuses m u.construct.name u.position ∧
        w.awaitImports site.base site.importParam m = (.error (.unsupported u), w)) := by
  refine ⟨?_, fun u => ⟨?_, ?_, fun h => ?_⟩⟩
  · simp only [ImportSite.awaited_eq_error_iff]
    exact exists_unsupported?_iff
  · rw [ImportSite.awaited_eq_error_iff, ImportSite.apply_refused_iff]
  · rw [ImportSite.awaited_eq_error_iff, ImportWork.awaitImports_refused_iff]
  · have hu := ImportSite.awaited_eq_error_iff.mp h
    refine ⟨refuses_of_unsupported? hu, ?_⟩
    rw [ImportWork.awaitImports, hu]

/-- The `import.meta` stands first, in a method, and the export is what is named. -/
example :
    (Module.ofText "class A \x7b m() \x7b import.meta \x7d \x7d\nexport let b").toOption.bind
      unsupported? = some ⟨.exportDeclaration, 32⟩ := by
  decide +kernel

end NotebookCell
