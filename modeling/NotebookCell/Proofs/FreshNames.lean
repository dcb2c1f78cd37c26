import NotebookCell.Proofs.CellText
import Mathlib.Data.List.Nodup
import Mathlib.Data.List.Perm.Subperm

/-!
# The names of the parameters

A parameter keeps the name that the options give it where no identifier of the cell has this name.
Otherwise it takes the first numbered form that is free. Only finitely many forms are taken, and a
numbered form of a plain name is a plain name that no reserved word can be.
-/

namespace NotebookCell

open Script

/-! ## Numbered forms -/

theorem numbered_injective (base : String) : Function.Injective (numbered base) := by
  intro i j h
  have hlists := congrArg String.toList h
  simp only [numbered, String.toList_append, List.append_assoc, List.append_cancel_left_eq] at hlists
  have hdigits : Nat.toDigits 10 i = Nat.toDigits 10 j := by
    simpa [Nat.toString_eq_ofList_toDigits] using hlists
  rw [← @Nat.ofDigitChars_ten_toDigits i, hdigits, Nat.ofDigitChars_ten_toDigits]

def numberedForms (base : String) (count : Nat) : List String :=
  (List.range' 1 count).map (numbered base)

theorem nodup_numberedForms (base : String) (count : Nat) : (numberedForms base count).Nodup := by
  exact List.Nodup.map (numbered_injective base) (List.nodup_range' 1)

theorem exists_numbered_not_mem (base : String) (taken : List String) :
    ∃ n, 0 < n ∧ n ≤ taken.length + 1 ∧ numbered base n ∉ taken := by
  by_contra hall
  have hsub : numberedForms base (taken.length + 1) ⊆ taken := by
    intro name hname
    obtain ⟨n, hn, rfl⟩ := List.mem_map.mp hname
    rw [List.mem_range'_1] at hn
    by_contra hfree
    exact hall ⟨n, by omega, by omega, hfree⟩
  have hle := (List.subperm_of_subset (nodup_numberedForms base _) hsub).length_le
  simp only [numberedForms, List.length_map, List.length_range'] at hle
  omega

/-! ## The first free form -/

/-- The name is the given one or, where that is taken, the first of its numbered forms that is not. -/
inductive FirstFree (base : String) (taken : List String) : String → Prop
  | same : base ∉ taken → FirstFree base taken base
  | suffixed {n : Nat} : base ∈ taken → 0 < n → numbered base n ∉ taken →
      (∀ m, 0 < m → m < n → numbered base m ∈ taken) → FirstFree base taken (numbered base n)

theorem FirstFree.not_mem {base name : String} {taken : List String} (h : FirstFree base taken name) :
    name ∉ taken := by
  cases h with
  | same hfree => exact hfree
  | suffixed _ _ hfree _ => exact hfree

theorem firstFree_freshName (base : String) (taken : List String) :
    FirstFree base taken (freshName base taken) := by
  unfold freshName
  split
  · rename_i hbase
    obtain ⟨n, hn, hle, hfree⟩ := exists_numbered_not_mem base taken
    cases hfound : (List.range' 1 (taken.length + 1)).find? fun n => !taken.contains (numbered base n) with
    | none =>
      have hmem : n ∈ List.range' 1 (taken.length + 1) := List.mem_range'_1.mpr (by omega)
      have htaken := List.find?_eq_none.mp hfound n hmem
      exact absurd (by simpa using htaken) hfree
    | some first =>
      obtain ⟨hfirst, hmem, hleast⟩ := List.find?_range'_eq_some.mp hfound
      have hpos := (List.mem_range'_1.mp hmem).1
      rw [List.find?_map, Function.comp_def, hfound]
      exact .suffixed (by simpa using hbase) hpos (by simpa using hfirst) fun m h1 h2 => by
        simpa using hleast m h1 h2
  · rename_i hbase
    exact .same (by simpa using hbase)

/-! ## Plain names -/

theorem Options.nameFault?_eq_none {name : String} : nameFault? name = none ↔
    Identifier.isPlain name ∧ name ∉ reservedNames ∧ name ≠ "console" := by
  unfold nameFault?
  split
  · rename_i hplain
    simp_all
  · rename_i hplain
    split
    · rename_i hreserved
      simp only [Bool.or_eq_true, List.contains_iff_mem, beq_iff_eq] at hreserved
      simp only [reduceCtorEq, false_iff, not_and, not_not]
      intro _ hnot
      exact hreserved.resolve_left hnot
    · rename_i hfree
      simp only [Bool.or_eq_true, List.contains_iff_mem, beq_iff_eq, not_or] at hfree
      simp only [Bool.not_eq_true, Bool.not_eq_false', true_iff] at hplain ⊢
      exact ⟨by simpa using hplain, hfree⟩

theorem isPlain_numbered {base : String} (h : Identifier.isPlain base) (n : Nat) :
    Identifier.isPlain (numbered base n) := by
  have hdigits : ∀ c ∈ (toString n).toList, Identifier.isPlainPart c := by
    intro c hc
    rw [Nat.toString_eq_ofList_toDigits, String.toList_ofList] at hc
    have hdigit := Nat.isDigit_of_mem_toDigits (by decide) (by decide) hc
    simp [Identifier.isPlainPart, hdigit]
  unfold Identifier.isPlain at h ⊢
  simp only [numbered, String.toList_append]
  cases hbase : base.toList with
  | nil =>
    rw [hbase] at h
    cases h
  | cons c cs =>
    rw [hbase] at h
    simp only [Bool.and_eq_true, List.all_eq_true] at h
    simp only [List.cons_append, Bool.and_eq_true, List.all_eq_true, List.mem_append]
    refine ⟨h.1, fun c' hc' => ?_⟩
    rcases hc' with (hc' | hc') | hc'
    · exact h.2 c' hc'
    · have hdollar : c' = '$' := by simpa using hc'
      rw [hdollar]
      decide
    · exact hdigits c' hc'

theorem dollar_mem_numbered (base : String) (n : Nat) : '$' ∈ (numbered base n).toList := by
  simp [numbered]

theorem dollar_not_mem_reserved : ∀ word ∈ "console" :: Options.reservedNames, '$' ∉ word.toList := by
  decide +kernel

theorem nameFault?_numbered {base : String} (h : Options.nameFault? base = none) (n : Nat) :
    Options.nameFault? (numbered base n) = none := by
  rw [Options.nameFault?_eq_none] at h ⊢
  have hword : ∀ word ∈ "console" :: Options.reservedNames, numbered base n ≠ word := by
    rintro word hword rfl
    exact dollar_not_mem_reserved _ hword (dollar_mem_numbered base n)
  refine ⟨isPlain_numbered h.1 n, fun hreserved => ?_, hword "console" (by simp)⟩
  exact hword _ (List.mem_cons_of_mem _ hreserved) rfl

theorem FirstFree.nameFault?_eq_none {base name : String} {taken : List String}
    (h : FirstFree base taken name) (hb : Options.nameFault? base = none) :
    Options.nameFault? name = none := by
  cases h with
  | same => exact hb
  | suffixed => exact nameFault?_numbered hb _

/-! ## Options -/

theorem ValidOptions.nameFault?_eq_none (o : ValidOptions) :
    Options.nameFault? o.options.globalParam = none ∧ Options.nameFault? o.options.importParam = none := by
  have h := o.valid
  unfold Options.fault? at h
  split at h
  · cases h
  · cases h
  · rename_i hglobal himport
    exact ⟨hglobal, himport⟩

/-! ## Cells -/

/-- The names that identifiers of a cell leave to the parameters of its wrapper. -/
structure ParametersFor (o : Options) (tree : Tree) (globalParam importParam : String) : Prop where
  globalParam_free : FirstFree o.globalParam tree.names globalParam
  importParam_free : FirstFree o.importParam (globalParam :: tree.names) importParam
  globalParam_valid : Options.nameFault? globalParam = none
  importParam_valid : Options.nameFault? importParam = none
  differ : [globalParam, importParam, "console"].Nodup
  unmentioned : ∀ t ∈ tree.nodes, t.name? ≠ some globalParam ∧ t.name? ≠ some importParam

theorem parametersFor_parameterNames (o : ValidOptions) (tree : Tree) :
    ParametersFor o.options tree (parameterNames o.options tree.names).1
      (parameterNames o.options tree.names).2 := by
  have hglobal := firstFree_freshName o.options.globalParam tree.names
  have himport := firstFree_freshName o.options.importParam
    (freshName o.options.globalParam tree.names :: tree.names)
  have hvalidGlobal := hglobal.nameFault?_eq_none o.nameFault?_eq_none.1
  have hvalidImport := himport.nameFault?_eq_none o.nameFault?_eq_none.2
  have hfree := himport.not_mem
  rw [List.mem_cons, not_or] at hfree
  refine ⟨hglobal, himport, hvalidGlobal, hvalidImport, ?_, fun t ht => ⟨fun hname => ?_, fun hname => ?_⟩⟩
  · have hconsole := (Options.nameFault?_eq_none.mp hvalidGlobal).2.2
    have hconsole' := (Options.nameFault?_eq_none.mp hvalidImport).2.2
    simp [parameterNames, hconsole, hconsole', Ne.symm hfree.1]
  · exact hglobal.not_mem (List.mem_filterMap.mpr ⟨t, ht, hname⟩)
  · exact hfree.2 (List.mem_filterMap.mpr ⟨t, ht, hname⟩)

theorem CellRun.parametersFor {o : ValidOptions} {cell : String} {r : AsyncCell} (run : CellRun o cell r) :
    ParametersFor o.options run.parsed.tree r.globalParam r.importParam := by
  obtain ⟨-, -, -, hparams⟩ := AwaitingCell.exists_of_ofModule run.awaiting_eq
  obtain ⟨draft, -, hr⟩ := AwaitingCell.publish_eq_ok.mp run.publish_eq
  have hglobal : r.globalParam = run.awaiting.globalParam := congrArg AsyncCell.globalParam hr
  have himport : r.importParam = run.awaiting.importParam := congrArg AsyncCell.importParam hr
  have hnames := parametersFor_parameterNames o run.parsed.tree
  rw [← hparams] at hnames
  rw [hglobal, himport]
  exact hnames

/-- The parameters of an asynchronous function are valid and different names that no identifier of
the cell has: those of the options, or else their first free forms, of which there always is one. -/
theorem AsyncCell.parametersFor_of_ofText {o : ValidOptions} {cell : String} {r : AsyncCell}
    (h : AsyncCell.ofText o cell = .ok r) :
    (∃ m, Module.ofText cell = .ok m ∧ ParametersFor o.options m.tree r.globalParam r.importParam) ∧
      ∀ (base : String) (taken : List String),
        ∃ n, 0 < n ∧ n ≤ taken.length + 1 ∧ numbered base n ∉ taken := by
  obtain ⟨run⟩ := AsyncCell.ofText_eq_ok_iff.mp h
  exact ⟨⟨run.parsed, run.parsed_eq, run.parametersFor⟩, exists_numbered_not_mem⟩

/-- A cell that has the names of the options for its own, one of them inside of a function. -/
def namesakeCell : String := "let __global = () => __import$1; __import"

theorem parametersFor_namesakeCell : ∃ r m, AsyncCell.ofText sampleOptions namesakeCell = .ok r ∧
    Module.ofText namesakeCell = .ok m ∧
    ParametersFor sampleOptions.options m.tree r.globalParam r.importParam ∧
    r.globalParam = "__global$1" ∧ r.importParam = "__import$2" := by
  obtain ⟨r, run, hnames⟩ := @exists_cellRun sampleOptions namesakeCell
    (fun _ _ _ r => r.globalParam == "__global$1" && r.importParam == "__import$2") (by decide +kernel)
  simp only [Bool.and_eq_true, beq_iff_eq] at hnames
  have h := AsyncCell.ofText_eq_ok_iff.mpr ⟨run⟩
  obtain ⟨⟨m, hm, hp⟩, -⟩ := AsyncCell.parametersFor_of_ofText h
  exact ⟨r, m, h, hm, hp, hnames⟩

end NotebookCell
