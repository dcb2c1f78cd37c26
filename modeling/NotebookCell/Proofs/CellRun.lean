import NotebookCell.AsyncCell

/-!
# Successful runs

A cell becomes an asynchronous function in stages. A run keeps what each of them gave, so that what
is proved of the stages can be put together.
-/

namespace NotebookCell

open Script TaggedText

theorem bind_eq_ok {ε α β : Type} {x : Except ε α} {f : α → Except ε β} {b : β} :
    x >>= f = .ok b ↔ ∃ a, x = .ok a ∧ f a = .ok b := by
  cases x <;> simp [bind, Except.bind]

@[simp] theorem mapError_ok {ε δ α : Type} (f : ε → δ) (a : α) :
    (Except.ok a : Except ε α).mapError f = .ok a := rfl

@[simp] theorem mapError_error {ε δ α : Type} (f : ε → δ) (d : ε) :
    (Except.error d : Except ε α).mapError f = .error (f d) := rfl

theorem mapError_eq_ok {ε δ α : Type} {x : Except ε α} {f : ε → δ} {a : α} :
    x.mapError f = .ok a ↔ x = .ok a := by
  cases x <;> simp

theorem bind_eq_error {ε α β : Type} {x : Except ε α} {f : α → Except ε β} {e : ε} :
    x >>= f = .error e ↔ x = .error e ∨ ∃ a, x = .ok a ∧ f a = .error e := by
  cases x <;> simp [bind, Except.bind]

theorem mapError_eq_error {ε δ α : Type} {x : Except ε α} {f : ε → δ} {e : δ} :
    x.mapError f = .error e ↔ ∃ d, x = .error d ∧ f d = e := by
  cases x <;> simp

/-! ## Stages -/

theorem ImportSite.apply_eq_ok {site : ImportSite} {m : Module} {r : AwaitedImports} {draft : Draft} :
    site.apply m = .ok (r, draft) ↔
      site.awaited m = .ok r ∧ site.draft.applyAll r.edits = .ok draft := by
  simp only [ImportSite.apply, bind_eq_ok, mapError_eq_ok]
  constructor
  · rintro ⟨r', hr, draft', hd, h⟩
    cases h
    exact ⟨hr, hd⟩
  · rintro ⟨hr, hd⟩
    exact ⟨r, hr, draft, hd, rfl⟩

theorem ImportSite.edits_of_awaited {site : ImportSite} {m : Module} {r : AwaitedImports}
    (h : site.awaited m = .ok r) : r.edits = m.imports.map site.edit := by
  unfold ImportSite.awaited at h
  split at h
  · cases h
  · cases h
    rfl

namespace AwaitingCell

variable {o : Options} {cell : String} {m : Module} {c : AwaitingCell}

def head (c : AwaitingCell) : String := wrapperHead c.globalParam c.importParam

theorem exists_of_ofModule (h : ofModule o cell m = .ok c) : ∃ draft,
    (ImportSite.ofCell cell o.file c.head c.importParam).apply m = .ok (c.imported, draft) ∧
      c.draft = draft.settle ∧ (c.globalParam, c.importParam) = parameterNames o m.tree.names := by
  simp only [ofModule, bind_eq_ok] at h
  obtain ⟨⟨imported, draft⟩, ha, h⟩ := h
  cases h
  exact ⟨draft, ha, rfl, rfl⟩

theorem publish_eq_ok {body : List Tree} {r : AsyncCell} : c.publish body = .ok r ↔
    ∃ draft, c.draft.applyAll (c.edits body) = .ok draft ∧
      r = ⟨draft.source, ⟨c.imported.rows, c.imported.effects, (publishBody c.globalParam body).defs⟩,
        c.globalParam, c.importParam⟩ := by
  simp only [publish, bind_eq_ok, mapError_eq_ok]
  constructor
  · rintro ⟨draft, hd, h⟩
    cases h
    exact ⟨draft, hd, rfl⟩
  · rintro ⟨draft, hd, rfl⟩
    exact ⟨draft, hd, rfl⟩

end AwaitingCell

/-! ## Runs -/

/-- What the stages gave where all of them succeeded. -/
structure CellRun (o : ValidOptions) (cell : String) (r : AsyncCell) where
  parsed : Module
  awaiting : AwaitingCell
  body : List Tree
  parsed_eq : Module.ofText cell = .ok parsed
  awaiting_eq : AwaitingCell.ofModule o.options cell parsed = .ok awaiting
  body_eq : awaiting.statements = .ok body
  publish_eq : awaiting.publish body = .ok r

theorem AsyncCell.ofText_eq_ok_iff {o : ValidOptions} {cell : String} {r : AsyncCell} :
    AsyncCell.ofText o cell = .ok r ↔ Nonempty (CellRun o cell r) := by
  simp only [AsyncCell.ofText, bind_eq_ok, mapError_eq_ok]
  constructor
  · rintro ⟨m, hm, c, hc, body, hb, h⟩
    exact ⟨⟨m, c, body, hm, hc, hb, h⟩⟩
  · rintro ⟨⟨m, c, body, hm, hc, hb, h⟩⟩
    exact ⟨m, hm, c, hc, body, hb, h⟩

def readings? (o : ValidOptions) (cell : String) : Option (Module × AwaitingCell × List Tree) := do
  let m ← (Module.ofText cell).toOption
  let c ← (AwaitingCell.ofModule o.options cell m).toOption
  let body ← c.statements.toOption
  return (m, c, body)

theorem eq_ok_of_toOption {ε α : Type} {x : Except ε α} {a : α} (h : x.toOption = some a) :
    x = .ok a := by
  cases x with
  | error e => cases h
  | ok b =>
    cases h
    rfl

/-- A run whose results pass a test is found by evaluation. -/
theorem exists_cellRun {o : ValidOptions} {cell : String}
    {test : Module → AwaitingCell → List Tree → AsyncCell → Bool}
    (h : (readings? o cell).any fun (m, c, body) => (c.publish body).toOption.any (test m c body)) :
    ∃ (r : AsyncCell) (run : CellRun o cell r), test run.parsed run.awaiting run.body r := by
  obtain ⟨⟨m, c, body⟩, hread, h⟩ := (Option.any_eq_true _ _).mp h
  obtain ⟨r, hr, htest⟩ := (Option.any_eq_true _ _).mp h
  simp only [readings?, bind, Option.bind_eq_some_iff, pure, Option.some.injEq] at hread
  obtain ⟨m', hm, c', hc, body', hb, heq⟩ := hread
  cases heq
  exact ⟨r, ⟨m, c, body, eq_ok_of_toOption hm, eq_ok_of_toOption hc, eq_ok_of_toOption hb,
    eq_ok_of_toOption hr⟩, htest⟩

end NotebookCell
