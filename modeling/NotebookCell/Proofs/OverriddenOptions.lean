import NotebookCell.Command.Run
import NotebookCell.Proofs.CellRun

/-!
# Options under flags

A flag takes the place of what an options document says, and the cell is run with what comes of it.
A document has to be valid by itself, though, and this is asked before any flag is looked at. So a
value that is overridden decides nothing but whether the document is refused.
-/

namespace NotebookCell.Command

theorem textOf_toUTF8 (s : String) : textOf s.toUTF8 = .ok s := by
  unfold textOf String.fromUTF8?
  simp only [String.toUTF8_eq_toByteArray, dif_pos s.isValidUTF8]
  rfl

/-! ## Stages of a run -/

/-- The options as a document has them, valid or not. -/
def World.writtenOptions (w : World) (a : Arguments) : Except CommandFailure Options :=
  match a.options with
  | none => return {}
  | some path => do
    let text ← w.fileText path ("options from " ++ path)
    (Options.ofJson text).mapError fun f => .cell (.malformedOptions f)

def Arguments.outcome (a : Arguments) : Except CommandFailure AsyncCell → Outcome
  | .ok t => ⟨0, render a t, ""⟩
  | .error f => ⟨1, "", f.report⟩

/-- The cell under the options with those of the flags in place of their own. -/
def Arguments.merged (a : Arguments) (o : Options) (cell : String) : Except CommandFailure AsyncCell :=
  (asyncCell (a.override o) cell).mapError .cell

def refusal (f : OptionFault) : CommandFailure := .cell (.invalidOption f)

/-- Nothing but the options with those of the flags in place of their own decides the outcome. -/
def FlagsOverride (w : World) (args : List String) : Prop :=
  ∀ a o cell, Arguments.parse args = .ok a → w.writtenOptions a = .ok o → w.cell a = .ok cell →
    run w args = a.outcome (a.merged o cell)

theorem validate_of_fault {o : Options} {f : OptionFault} (h : o.fault? = some f) :
    o.validate = .error f := by
  unfold Options.validate
  split
  · next f' h' =>
    rw [h] at h'
    cases h'
    rfl
  · next h' =>
    rw [h] at h'
    cases h'

theorem validate_of_valid (v : ValidOptions) : v.options.validate = .ok v := by
  unfold Options.validate
  split
  · next f h =>
    rw [v.valid] at h
    cases h
  · rfl

theorem asyncCell_of_fault {o : Options} {f : OptionFault} (h : o.fault? = some f) (cell : String) :
    asyncCell o cell = .error (.invalidOption f) := by
  unfold asyncCell
  rw [validate_of_fault h]
  rfl

theorem asyncCell_of_valid (v : ValidOptions) (cell : String) :
    asyncCell v.options cell = AsyncCell.ofText v cell := by
  unfold asyncCell
  rw [validate_of_valid]
  rfl

/-- Nothing looks at the options again after they were found valid. -/
theorem ofText_ne_invalidOption (v : ValidOptions) (cell : String) (f : OptionFault) :
    AsyncCell.ofText v cell ≠ .error (.invalidOption f) := by
  intro h
  simp only [AsyncCell.ofText, bind_eq_error, mapError_eq_error] at h
  rcases h with ⟨_, _, h⟩ | ⟨m, _, h | ⟨c, _, h | ⟨body, _, h⟩⟩⟩
  · cases h
  · simp only [AwaitingCell.ofModule, ImportSite.apply, bind_eq_error, mapError_eq_error] at h
    rcases h with (⟨_, _, h⟩ | ⟨_, _, ⟨_, _, h⟩ | ⟨_, _, h⟩⟩) | ⟨_, _, h⟩ <;> cases h
  · simp only [AwaitingCell.statements, readWrapped, bind_eq_error, mapError_eq_error] at h
    rcases h with ⟨_, _, h⟩ | ⟨_, _, _, _, h⟩ <;> cases h
  · simp only [AwaitingCell.publish, bind_eq_error, mapError_eq_error] at h
    rcases h with ⟨_, _, h⟩ | ⟨_, _, h⟩ <;> cases h

theorem asyncCell_eq_invalidOption_iff {o : Options} {cell : String} {f : OptionFault} :
    asyncCell o cell = .error (.invalidOption f) ↔ o.fault? = some f := by
  constructor
  · intro h
    cases hf : o.fault? with
    | some f' =>
      rw [asyncCell_of_fault hf] at h
      cases h
      rfl
    | none =>
      rw [asyncCell_of_valid ⟨o, hf⟩] at h
      exact absurd h (ofText_ne_invalidOption _ _ _)
  · intro h
    exact asyncCell_of_fault h cell

theorem asyncCell_eq_ok_iff {o : Options} {cell : String} {t : AsyncCell} :
    asyncCell o cell = .ok t ↔ ∃ v : ValidOptions, v.options = o ∧ AsyncCell.ofText v cell = .ok t := by
  constructor
  · intro h
    cases hf : o.fault? with
    | some f =>
      rw [asyncCell_of_fault hf] at h
      cases h
    | none =>
      rw [asyncCell_of_valid ⟨o, hf⟩] at h
      exact ⟨⟨o, hf⟩, rfl, h⟩
  · rintro ⟨v, rfl, h⟩
    rw [asyncCell_of_valid, h]

/-- Any document is asked for its validity. Without one the defaults hold, which are valid. -/
theorem baseOptions_of_written {w : World} {a : Arguments} {o : Options}
    (ho : w.writtenOptions a = .ok o) :
    w.baseOptions a = match o.fault? with
      | some f => .error (refusal f)
      | none => .ok o := by
  unfold World.writtenOptions at ho
  unfold World.baseOptions ValidOptions.ofJson
  cases hp : a.options with
  | none =>
    rw [hp] at ho
    cases ho
    have hd : ({} : Options).fault? = none := by decide +kernel
    simp only [hd]
    rfl
  | some path =>
    simp only [hp] at ho
    obtain ⟨text, ht, hj⟩ := bind_eq_ok.mp ho
    rw [mapError_eq_ok] at hj
    simp only [ht, hj, bind, Except.bind, mapError_ok]
    cases hf : o.fault? with
    | some f =>
      rw [validate_of_fault hf]
      rfl
    | none =>
      rw [validate_of_valid ⟨o, hf⟩]
      rfl

section
variable {w : World} {args : List String} {a : Arguments} {o : Options} {cell : String}

theorem asyncCell_of_written (ho : w.writtenOptions a = .ok o) (hc : w.cell a = .ok cell) :
    w.asyncCell a = match o.fault? with
      | some f => .error (refusal f)
      | none => a.merged o cell := by
  unfold World.asyncCell
  rw [baseOptions_of_written ho]
  cases o.fault? with
  | some f => rfl
  | none =>
    rw [hc]
    rfl

theorem merged_eq_ok_iff {t : AsyncCell} : a.merged o cell = .ok t ↔
    ∃ v : ValidOptions, v.options = a.override o ∧ AsyncCell.ofText v cell = .ok t := by
  unfold Arguments.merged
  rw [mapError_eq_ok, asyncCell_eq_ok_iff]

theorem merged_eq_refusal_iff {f : OptionFault} :
    a.merged o cell = .error (refusal f) ↔ (a.override o).fault? = some f := by
  unfold Arguments.merged refusal
  rw [mapError_eq_error, ← @asyncCell_eq_invalidOption_iff _ cell]
  constructor
  · rintro ⟨d, hd, h⟩
    cases h
    exact hd
  · intro h
    exact ⟨_, h, rfl⟩

theorem run_of_parse (h : Arguments.parse args = .ok a) : run w args = a.outcome (w.asyncCell a) := by
  unfold run
  rw [h]
  cases hr : w.asyncCell a <;> simp only [hr, Arguments.outcome]

theorem exitCode_outcome_eq_zero_iff (r : Except CommandFailure AsyncCell) :
    (a.outcome r).exitCode = 0 ↔ ∃ t, r = .ok t := by
  cases r <;> simp [Arguments.outcome]

theorem output_outcome_of_exitCode {r : Except CommandFailure AsyncCell}
    (h : (a.outcome r).exitCode ≠ 0) : (a.outcome r).output = "" := by
  cases r with
  | ok t => exact absurd rfl h
  | error f => rfl

/-- A document with a fault is refused with it, whatever the flags say. With any other document the
outcome is that of the merged options, of which a value that a flag overrides is no part. -/
theorem run_of_writtenOptions (ha : Arguments.parse args = .ok a) (ho : w.writtenOptions a = .ok o)
    (hc : w.cell a = .ok cell) :
    run w args = a.outcome (match o.fault? with
      | some f => .error (refusal f)
      | none => a.merged o cell) ∧
    ((run w args).exitCode = 0 ↔ o.fault? = none ∧
      ∃ v : ValidOptions, v.options = a.override o ∧ ∃ t, AsyncCell.ofText v cell = .ok t) ∧
    ((run w args).exitCode ≠ 0 → (run w args).output = "") ∧
    (w.asyncCell a = a.merged o cell ↔ ∀ f, o.fault? = some f → (a.override o).fault? = some f) := by
  have hr := @run_of_parse w _ _ ha
  have hw := asyncCell_of_written ho hc
  refine ⟨by rw [hr, hw], ?_, ?_, ?_⟩
  · rw [hr, exitCode_outcome_eq_zero_iff, hw]
    cases o.fault? with
    | some f => simp
    | none =>
      simp only [merged_eq_ok_iff, true_and]
      constructor
      · rintro ⟨t, v, hv, ht⟩
        exact ⟨v, hv, t, ht⟩
      · rintro ⟨v, hv, t, ht⟩
        exact ⟨t, v, hv, ht⟩
  · intro h
    rw [hr] at h ⊢
    exact output_outcome_of_exitCode h
  · rw [hw]
    cases ho' : o.fault? with
    | none => simp
    | some f =>
      simp only [Option.some.injEq, forall_eq']
      rw [eq_comm, merged_eq_refusal_iff]

end

/-- A world whose only file is an options document, with `let x` on standard input. -/
def documentWorld (document : String) : World where
  file path := if path = "o.json" then .ok document.toUTF8 else .error .notFound
  stdin := .ok "let x".toUTF8

theorem cell_documentWorld (document : String) (a : Arguments) (h : a.input = none) :
    (documentWorld document).cell a = .ok "let x" := by
  unfold World.cell
  rw [h]
  simp only [documentWorld, bind, Except.bind, textOf_toUTF8]
  rfl

theorem writtenOptions_documentWorld (document : String) (a : Arguments) (h : a.options = some "o.json") :
    (documentWorld document).writtenOptions a =
      (Options.ofJson document).mapError fun f => .cell (.malformedOptions f) := by
  unfold World.writtenOptions World.fileText
  rw [h]
  simp only [documentWorld, if_true, bind, Except.bind, textOf_toUTF8]
  rfl

theorem writtenOptions_eq_ok {document : String} {o : Options} {a : Arguments}
    (ha : a.options = some "o.json") (h : (Options.ofJson document).toOption = some o) :
    (documentWorld document).writtenOptions a = .ok o := by
  rw [writtenOptions_documentWorld document a ha, eq_ok_of_toOption h]
  rfl

def nbArguments : Arguments := { options := some "o.json", globalParam := some "nb" }

def nbFlags : List String := ["--options", "o.json", "--global", "nb"]

theorem parse_nbFlags : Arguments.parse nbFlags = .ok nbArguments :=
  eq_ok_of_toOption (by decide +kernel)

/-- The document names both parameters, the flag one of them. -/
def renamedDocument : String := "\x7b\"global_param\":\"g\",\"import_param\":\"load\"\x7d"

theorem run_renamedDocument :
    Arguments.parse nbFlags = .ok nbArguments ∧
    (documentWorld renamedDocument).writtenOptions nbArguments = .ok ⟨"g", "load", none⟩ ∧
    (documentWorld renamedDocument).cell nbArguments = .ok "let x" ∧
    run (documentWorld renamedDocument) nbFlags =
      nbArguments.outcome (nbArguments.merged ⟨"g", "load", none⟩ "let x") ∧
    (documentWorld renamedDocument).asyncCell nbArguments =
      (asyncCell ⟨"nb", "load", none⟩ "let x").mapError .cell := by
  have ho := @writtenOptions_eq_ok renamedDocument ⟨"g", "load", none⟩ nbArguments rfl
    (by decide +kernel)
  have hc := cell_documentWorld renamedDocument nbArguments rfl
  have hv : Options.fault? ⟨"g", "load", none⟩ = none := by decide +kernel
  have hr := run_of_writtenOptions parse_nbFlags ho hc
  refine ⟨parse_nbFlags, ho, hc, ?_, hr.2.2.2.mpr (by simp [hv])⟩
  simpa only [hv] using hr.1

/-- The document gives a parameter a name that it cannot have. The flag overrides it, but the
document is refused. -/
def refusedDocument : String := "\x7b\"global_param\":\"await\"\x7d"

theorem not_flagsOverride_refusedDocument :
    ¬FlagsOverride (documentWorld refusedDocument) nbFlags := by
  intro h
  have ho := @writtenOptions_eq_ok refusedDocument ⟨"await", "__import", none⟩ nbArguments rfl
    (by decide +kernel)
  have hc := cell_documentWorld refusedDocument nbArguments rfl
  have hr := h _ _ _ parse_nbFlags ho hc
  have hf : (run (documentWorld refusedDocument) nbFlags).exitCode = 1 := by decide +kernel
  rw [hr] at hf
  revert hf
  decide +kernel

end NotebookCell.Command
