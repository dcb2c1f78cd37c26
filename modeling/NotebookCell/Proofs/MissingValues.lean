import NotebookCell.Proofs.FreshNames
import NotebookCell.Proofs.WholeText

/-!
# Variables without a value

A variable that is declared without a value is set to `undefined`, by name. The name means the
constant unless the output declares it around the declaration: as a parameter of the wrapper, in a
block, in the head of a loop or as what a handler catches. Parameters are kept apart from the names
of the cell, but an inserted name is none of these.
-/

namespace NotebookCell

open Script TaggedText

/-! ## Inserted values -/

/-- The span of the declarator that the edit gives the missing value. -/
def Edit.unset? : Edit → Option Span
  | .append range text => if text = inserted " = undefined)" then some range else none
  | _ => none

theorem inserted_injective {s t : String} (h : inserted s = inserted t) : s = t := by
  have hchars := congrArg chars h
  rw [chars_inserted, chars_inserted] at hchars
  exact String.toList_inj.mp hchars

theorem unset?_append_of_ne {text : String} (h : text ≠ " = undefined)") (span : Span) :
    (Edit.append span (inserted text)).unset? = none := by
  rw [Edit.unset?, if_neg]
  intro heq
  exact h (inserted_injective heq)

/-! ## Edits of patterns -/

/-- The edit of a name that a pattern binds. -/
inductive BindingEdit (G : String) : Edit → Prop
  | name (span : Span) : BindingEdit G (.prepend span (inserted (G ++ ".")))
  | shorthand (span : Span) (name : String) :
    BindingEdit G (.append span (inserted (": " ++ G ++ "." ++ name)))

theorem BindingEdit.unset?_eq_none {G : String} {e : Edit} (h : BindingEdit G e) : e.unset? = none := by
  cases h with
  | name span => rfl
  | shorthand span name =>
    refine unset?_append_of_ne (fun h => ?_) span
    have hlists := congrArg String.toList h
    simp at hlists

section
variable (G : String) (kind : VarKind)

theorem bindingEdit_of_mem_target {t : Tree} :
    ∀ e ∈ (publishTarget G kind t).edits, BindingEdit G e := by
  fun_induction publishTarget G kind t with
  | case1 name span => exact List.forall_mem_singleton.mpr (.name span)
  | case2 _ _ _ ih => exact ih
  | case3 _ _ _ ih => exact ih
  | case4 => simp [Published.none]

theorem bindingEdit_of_mem_property {t : Tree} :
    ∀ e ∈ (publishProperty G kind t).edits, BindingEdit G e := by
  fun_cases publishProperty G kind t with
  | case1 => exact bindingEdit_of_mem_target G kind
  | case2 _ name span => exact List.forall_mem_singleton.mpr (.shorthand span name)
  | case3 => exact bindingEdit_of_mem_target G kind
  | case4 => simp [Published.none]

mutual

theorem bindingEdit_of_mem_pattern : ∀ t : Tree, ∀ e ∈ (publishPattern G kind t).edits, BindingEdit G e
  | .node label span children => by
    intro e he
    cases label with
    | arrayPattern =>
      rcases List.mem_append.mp (by simpa [publishPattern] using he) with he | he
      · obtain ⟨u, -, he⟩ := mem_edits_all he
        exact bindingEdit_of_mem_target G kind e he
      · exact bindingEdit_of_mem_patterns children e he
    | objectPattern =>
      rcases List.mem_append.mp (by simpa [publishPattern] using he) with he | he
      · obtain ⟨u, -, he⟩ := mem_edits_all he
        exact bindingEdit_of_mem_property G kind e he
      · exact bindingEdit_of_mem_patternsOf children e he
    | withDefault =>
      cases children with
      | nil => cases he
      | cons target rest => exact bindingEdit_of_mem_pattern target e he
    | rest =>
      cases children with
      | nil => cases he
      | cons target rest => exact bindingEdit_of_mem_pattern target e he
    | _ => cases he

theorem bindingEdit_of_mem_patterns : ∀ ts : List Tree,
    ∀ e ∈ (publishPatterns G kind ts).edits, BindingEdit G e
  | [], _, he => by cases he
  | t :: ts, e, he => by
    rcases List.mem_append.mp he with he | he
    · exact bindingEdit_of_mem_pattern t e he
    · exact bindingEdit_of_mem_patterns ts e he

theorem bindingEdit_of_mem_patternsOf : ∀ ts : List Tree,
    ∀ e ∈ (publishPatternsOf G kind ts).edits, BindingEdit G e
  | [], _, he => by cases he
  | t :: ts, e, he => by
    rw [publishPatternsOf_cons] at he
    rcases List.mem_append.mp he with he | he
    · exact bindingEdit_of_mem_patternOf t e he
    · exact bindingEdit_of_mem_patternsOf ts e he

theorem bindingEdit_of_mem_patternOf : ∀ t : Tree,
    ∀ e ∈ (publishPatternsOf G kind [t]).edits, BindingEdit G e
  | .node label span children => by
    intro e he
    cases label with
    | keyValue =>
      match children with
      | [key, value] => exact bindingEdit_of_mem_pattern value e (by simpa [publishPatternsOf] using he)
      | [] | [_] | _ :: _ :: _ :: _ => cases he
    | rest =>
      cases children with
      | nil => cases he
      | cons target rest => exact bindingEdit_of_mem_pattern target e (by simpa [publishPatternsOf] using he)
    | _ => cases he

end

/-! ## Declarators without a value -/

/-- The node declares a variable over the span and gives it no value. -/
def Script.Tree.lacksValue (s : Span) (d : Tree) : Prop :=
  ∃ target init, d = .node .declarator s [target, init] ∧ init.label = .absent

theorem unset?_enclose {range : Span} {before after : String} (h : after ≠ " = undefined)") :
    ∀ e ∈ enclose range before after, e.unset? = none := by
  intro e he
  rcases List.mem_pair.mp he with rfl | rfl
  · rfl
  · exact unset?_append_of_ne h range

theorem lacksValue_of_declaratorEdits {span s : Span} {target init : Tree} {e : Edit}
    (he : e ∈ declaratorEdits span init) (hu : e.unset? = some s) :
    (Script.Tree.node .declarator span [target, init]).lacksValue s := by
  revert e
  fun_cases declaratorEdits span init with
  | case1 absentSpan children =>
    intro e he hu
    rcases List.mem_pair.mp he with rfl | rfl
    · cases hu
    · rw [Edit.unset?, if_pos rfl] at hu
      cases hu
      exact ⟨target, _, rfl, rfl⟩
  | case2 init hl =>
    intro e he hu
    have hnone : ∀ e ∈ Edit.prepend span (inserted "(") :: (enclose init.span "(" ")" ++
        [.append span (inserted ")")]), e.unset? = none :=
      List.forall_mem_cons.mpr ⟨rfl, List.forall_mem_append.mpr
        ⟨unset?_enclose (by decide), List.forall_mem_singleton.mpr (unset?_append_of_ne (by decide) span)⟩⟩
    rw [hnone e he] at hu
    cases hu

theorem lacksValue_of_declarator {form : DeclarationForm} {s : Span} {d : Tree} {e : Edit}
    (he : e ∈ (publishDeclarator G kind form d).edits) (hu : e.unset? = some s) : d.lacksValue s := by
  revert e
  fun_cases publishDeclarator G kind form d with
  | case1 span target init =>
    intro e he hu
    simp only [Published.edits_append, List.mem_append] at he
    rcases he with (he | he) | he
    · rw [(bindingEdit_of_mem_target G kind e he).unset?_eq_none] at hu
      cases hu
    · rw [(bindingEdit_of_mem_pattern G kind target e he).unset?_eq_none] at hu
      cases hu
    · simp only [Published.ofEdits] at he
      split at he
      · exact lacksValue_of_declaratorEdits he hu
      · cases he
  | case2 =>
    intro e he
    cases he

theorem exists_lacksValue_of_declaration {form : DeclarationForm} {span s : Span} {ds : List Tree} {e : Edit}
    (he : e ∈ (publishDeclaration G kind form span ds).edits) (hu : e.unset? = some s) :
    ∃ d ∈ ds, d.lacksValue s := by
  simp only [publishDeclaration, Published.edits_append, List.mem_append] at he
  rcases he with (he | he) | he
  · rcases List.mem_singleton.mp he with rfl
    cases hu
  · obtain ⟨d, hd, he⟩ := mem_edits_all he
    exact ⟨d, hd, lacksValue_of_declarator G kind he hu⟩
  · split at he
    · revert e
      fun_cases closeDeclaration ds with
      | case1 d hd =>
        intro e hu he
        rcases List.mem_singleton.mp he with rfl
        rw [unset?_append_of_ne (by decide)] at hu
        cases hu
      | case2 =>
        intro e hu he
        cases he
    · cases he

end

theorem exists_lacksValue_of_mem_edits (G : String) {d : Tree} {part : Part} {place : Place} {s : Span}
    {e : Edit} (hd : d.label.isDeclaration) (hf : d.fits part) (he : e ∈ (publish G place d).edits)
    (hu : e.unset? = some s) : ∃ v ∈ d.children, v.lacksValue s := by
  obtain ⟨label, span, children⟩ := d
  simp only [Tree.fits, Bool.and_eq_true] at hf
  cases label with
  | funDecl =>
    obtain ⟨target, fn, rfl, hname, -⟩ := fitsAll_pair hf.2
    obtain ⟨name, nameSpan, rfl⟩ := eq_name_of_fits hname
    rw [unset?_enclose (by decide) e he] at hu
    cases hu
  | classDecl =>
    obtain ⟨target, cls, rfl, hname, -⟩ := fitsAll_pair hf.2
    obtain ⟨name, nameSpan, rfl⟩ := eq_name_of_fits hname
    rw [publish] at he
    split at he
    · rw [unset?_enclose (by decide) e he] at hu
      cases hu
    · cases he
  | varDecl kind =>
    rw [publish] at he
    split at he
    · exact exists_lacksValue_of_declaration G kind he hu
    · cases he
  | _ => cases hd

/-- The name `undefined` is inserted for variables without a value only. -/
theorem exists_lacksValue_of_unset? (G : String) {body : List Tree} (hf : ∀ t ∈ body, t.fits .statement)
    {e : Edit} (he : e ∈ (publishBody G body).edits ++ returnEdits body) {s : Span}
    (hu : e.unset? = some s) :
    ∃ d ∈ outerNodesOf body, d.label.isDeclaration ∧ ∃ v ∈ d.children, v.lacksValue s := by
  rcases List.mem_append.mp he with he | he
  · obtain ⟨t, ht, he⟩ := mem_edits_all he
    obtain ⟨d, hm, hdecl, ⟨part, hfd⟩, p, he⟩ := exists_declaration_of_mem_edits G t .body (hf t ht) he
    exact ⟨d, mem_outerNodesOf.mpr ⟨t, ht, hm⟩, hdecl, exists_lacksValue_of_mem_edits G hdecl hfd he hu⟩
  · obtain ⟨span, value, -, he⟩ := exists_of_mem_returnEdits he
    rw [unset?_enclose (by decide) e he] at hu
    cases hu

/-! ## Names around a declaration -/

/-- The names that a statement declares in the block that it is an element of. -/
def lexicalNames (t : Tree) : List String := if isLexical t then (declared t).map (·.name) else []

/-- The names that a node declares for what stands in it, and that no edit takes away. -/
def scopeNames : Tree → List String
  | .node .block _ statements => statements.flatMap lexicalNames
  | .node .loop _ (head :: _) => lexicalNames head
  | .node .forIn _ (head :: _) => lexicalNames head
  | .node (.forOf _) _ (head :: _) => lexicalNames head
  | .node .switch _ (_ :: clauses) => clauses.flatMap fun c => c.children.flatMap lexicalNames
  | .node .handler _ (caught :: _) => boundNames caught
  | _ => []

/-- A block, a loop, a switch or a handler around the node declares the name. -/
def ScopeDeclares (body : List Tree) (name : String) (d : Tree) : Prop :=
  ∃ scope ∈ outerNodesOf body, d ∈ outerNodesOf scope.children ∧ name ∈ scopeNames scope

/-- In the output the name does not mean what it means outside of the wrapper. -/
def Captures (r : AsyncCell) (body : List Tree) (name : String) (d : Tree) : Prop :=
  name ∈ [r.globalParam, r.importParam, "console"] ∨ ScopeDeclares body name d

theorem FirstFree.eq_iff {base name word : String} {taken : List String} (h : FirstFree base taken name)
    (hw : '$' ∉ word.toList) : name = word ↔ base = word ∧ word ∉ taken := by
  cases h with
  | same hfree =>
    constructor
    · rintro rfl
      exact ⟨rfl, hfree⟩
    · exact fun hword => hword.1
  | @suffixed n hbase =>
    constructor
    · rintro rfl
      exact absurd (dollar_mem_numbered base n) hw
    · rintro ⟨rfl, hfree⟩
      exact absurd hbase hfree

theorem ParametersFor.mem_iff {o : Options} {tree : Tree} {globalParam importParam word : String}
    (h : ParametersFor o tree globalParam importParam) (hw : '$' ∉ word.toList) :
    word ∈ [globalParam, importParam] ↔
      (o.globalParam = word ∨ o.importParam = word) ∧ word ∉ tree.names := by
  have hglobal := h.globalParam_free.eq_iff hw
  have himport := h.importParam_free.eq_iff hw
  rw [List.mem_cons, not_or] at himport
  rw [List.mem_pair, eq_comm, hglobal, @eq_comm _ word, himport]
  by_cases hg : globalParam = word
  · obtain ⟨h1, h2⟩ := hglobal.mp hg
    simp [h1, h2]
  · have hne : word ≠ globalParam := Ne.symm hg
    by_cases hbase : o.globalParam = word
    · have hmem : word ∈ tree.names := by
        by_contra hfree
        exact hg (hglobal.mpr ⟨hbase, hfree⟩)
      simp [hmem]
    · simp [hbase, hne]

/-! ## Cells -/

namespace CellRun

variable {o : ValidOptions} {cell : String} {r : AsyncCell}

/-- Each `undefined` of the output that publishing inserted means the constant. -/
def LeavesUndefined (run : CellRun o cell r) : Prop :=
  ∀ e ∈ run.awaiting.edits run.body, ∀ s, e.unset? = some s → ∀ d ∈ outerNodesOf run.body,
    (∃ v ∈ d.children, v.lacksValue s) → ¬Captures r run.body "undefined" d

/-- An inserted `undefined` is captured where the options name a parameter so and no identifier of
the cell is named so, or where a block, a loop, a switch or a handler around it declares the name. -/
theorem captures_undefined_iff (run : CellRun o cell r) (hf : ∀ t ∈ run.body, t.fits .statement) {e : Edit}
    (he : e ∈ run.awaiting.edits run.body) {s : Span} (hu : e.unset? = some s) :
    ∃ d ∈ outerNodesOf run.body, d.label.isDeclaration ∧ (∃ v ∈ d.children, v.lacksValue s) ∧
      (Captures r run.body "undefined" d ↔
        ((o.options.globalParam = "undefined" ∨ o.options.importParam = "undefined") ∧
          "undefined" ∉ run.parsed.tree.names) ∨ ScopeDeclares run.body "undefined" d) := by
  obtain ⟨d, hd, hdecl, hv⟩ := exists_lacksValue_of_unset? run.awaiting.globalParam hf he hu
  have hdollar : '$' ∉ "undefined".toList := by decide +kernel
  have hparams := run.parametersFor.mem_iff hdollar
  refine ⟨d, hd, hdecl, hv, ?_⟩
  rw [← hparams, Captures]
  simp

end CellRun

/-- A block keeps its own `undefined` around the variable that leaves it. -/
def blockCell : String := "\x7b let undefined = 1; var x \x7d"

theorem captures_undefined_blockCell : ∃ (r : AsyncCell) (run : CellRun sampleOptions blockCell r),
    ∃ d ∈ outerNodesOf run.body, (∃ s, ∃ v ∈ d.children, v.lacksValue s) ∧
      Captures r run.body "undefined" d := by
  obtain ⟨r, run, hread⟩ := @exists_cellRun sampleOptions blockCell
    (fun _ c body _ => body.all (·.fits .statement) && (c.edits body).any (·.unset?.isSome) &&
      body.length == 1 && body.all fun t => t.label == .block && "undefined" ∈ scopeNames t)
    (by decide +kernel)
  simp only [Bool.and_eq_true, List.all_eq_true, List.any_eq_true, beq_iff_eq, decide_eq_true_eq] at hread
  obtain ⟨⟨⟨hf, e, he, hu⟩, hone⟩, hblock⟩ := hread
  obtain ⟨s, hu⟩ := Option.isSome_iff_exists.mp hu
  obtain ⟨d, hd, hdecl, hv, hiff⟩ := run.captures_undefined_iff hf he hu
  obtain ⟨block, hbody⟩ := List.length_eq_one_iff.mp hone
  obtain ⟨hl, hname⟩ := hblock block (by simp [hbody])
  have hinside : d ∈ outerNodesOf block.children := by
    have hm := hd
    rw [hbody, outerNodesOf, outerNodesOf, List.append_nil] at hm
    obtain ⟨label, span, children⟩ := block
    simp only [Tree.label] at hl
    subst hl
    rcases List.mem_cons.mp hm with rfl | hm
    · cases hdecl
    · exact hm
  have hscope : block ∈ outerNodesOf run.body := by
    obtain ⟨label, span, children⟩ := block
    simp only [Tree.label] at hl
    subst hl
    rw [hbody]
    exact List.mem_append_left _ (List.mem_cons_self ..)
  exact ⟨r, run, d, hd, ⟨s, hv⟩, hiff.mpr (.inr ⟨block, hscope, hinside, hname⟩)⟩

def undefinedOptions : ValidOptions := ⟨{ globalParam := "undefined" }, by decide +kernel⟩

def unsetCell : String := "let x"

/-- The options may name a parameter `undefined`. -/
theorem not_leavesUndefined_unsetCell :
    ∃ (r : AsyncCell) (run : CellRun undefinedOptions unsetCell r), ¬run.LeavesUndefined := by
  obtain ⟨r, run, hread⟩ := @exists_cellRun undefinedOptions unsetCell
    (fun _ c body r => body.all (·.fits .statement) && (c.edits body).any (·.unset?.isSome) &&
      r.globalParam == "undefined") (by decide +kernel)
  simp only [Bool.and_eq_true, List.all_eq_true, List.any_eq_true, beq_iff_eq] at hread
  obtain ⟨⟨hf, e, he, hu⟩, hname⟩ := hread
  obtain ⟨s, hu⟩ := Option.isSome_iff_exists.mp hu
  obtain ⟨d, hd, -, hv⟩ := exists_lacksValue_of_unset? run.awaiting.globalParam hf he hu
  exact ⟨r, run, fun hleaves => hleaves e he s hu d hd hv (.inl (by simp [hname]))⟩

end NotebookCell
