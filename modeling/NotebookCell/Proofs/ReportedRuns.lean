import NotebookCell.Proofs.OverriddenOptions
import NotebookCell.Proofs.PrintedValues

/-!
# Runs that report

With `--summary` the command prints a document in place of the code. The flag decides nothing else,
and the document has the code, the names of the parameters and the summary, each of which is read
back as it was.
-/

namespace NotebookCell

def DefinitionKind.ofWord? : String → Option DefinitionKind
  | "var" => some (.variable .var)
  | "let" => some (.variable .block)
  | "const" => some (.variable .constant)
  | "function" => some .function
  | "class" => some .classDef
  | _ => none

theorem DefinitionKind.ofWord?_word (k : DefinitionKind) : ofWord? k.word = some k := by
  rcases k with ⟨_ | _ | _⟩ | _ | _ <;> rfl

namespace Command

/-! ## Documents of runs -/

/-- What a document says of a run. -/
structure Report where
  code : String
  globalParam : String
  importParam : String
  summary : Summary
  deriving DecidableEq, Repr

def textField? (v : Json.Value) (key : String) : Option String := (v.field? key).bind Json.Value.text?

def listField? (v : Json.Value) (key : String) : Option (List Json.Value) :=
  (v.field? key).bind Json.Value.list?

def importOf? (v : Json.Value) : Option ImportedBinding :=
  return ⟨← textField? v "local", ← textField? v "imported", ← textField? v "source"⟩

def definitionOf? (v : Json.Value) : Option Definition :=
  return ⟨← textField? v "local", ← (textField? v "kind").bind DefinitionKind.ofWord?⟩

def summaryOf? (v : Json.Value) : Option Summary := do
  let imports ← listField? v "imports"
  let effects ← listField? v "effects"
  let defs ← listField? v "defs"
  return ⟨← imports.mapM importOf?, ← effects.mapM Json.Value.text?, ← defs.mapM definitionOf?⟩

/-- What a document says, by the names of its fields. -/
def Report.ofValue? (v : Json.Value) : Option Report :=
  return ⟨← textField? v "code", ← textField? v "global_param", ← textField? v "import_param",
    ← (v.field? "summary").bind summaryOf?⟩

theorem mapM_map_eq_some {α β : Type} {f : α → β} {g : β → Option α} (h : ∀ a, g (f a) = some a)
    (l : List α) : (l.map f).mapM g = some l := by
  induction l with
  | nil => rfl
  | cons a l ih =>
    rw [List.map_cons, List.mapM_cons, h, ih]
    rfl

theorem text?_text (s : String) : (Json.Value.text s).text? = some s := rfl

theorem importOf?_importValue (r : ImportedBinding) : importOf? (importValue r) = some r := rfl

theorem definitionOf?_defValue (r : Definition) : definitionOf? (defValue r) = some r := by
  have hk := r.kind.ofWord?_word
  show (do return ⟨r.name, ← DefinitionKind.ofWord? r.kind.word⟩ : Option Definition) = some r
  rw [hk]
  rfl

theorem summaryOf?_summaryValue (s : Summary) : summaryOf? (summaryValue s) = some s := by
  show (do return ⟨← (s.imports.map importValue).mapM importOf?,
    ← (s.effects.map Json.Value.text).mapM Json.Value.text?,
    ← (s.defs.map defValue).mapM definitionOf?⟩ : Option Summary) = some s
  rw [mapM_map_eq_some importOf?_importValue, mapM_map_eq_some text?_text,
    mapM_map_eq_some definitionOf?_defValue]
  rfl

theorem ofValue?_reportValue (t : AsyncCell) :
    Report.ofValue? (reportValue t) = some ⟨t.code, t.globalParam, t.importParam, t.summary⟩ := by
  show (do return ⟨t.code, t.globalParam, t.importParam, ← summaryOf? (summaryValue t.summary)⟩ :
    Option Report) = _
  rw [summaryOf?_summaryValue]
  rfl

/-! ## The flag among the arguments -/

namespace Arguments

def withSummary (a : Arguments) (b : Bool) : Arguments := { a with summary := b }

/-- Reads an argument that takes no other one as its value. -/
def setSingle (a : Arguments) (arg : String) : Except Refusal Arguments :=
  if !looksLikeOption arg then a.setInput arg
  else match splitAttached arg with
    | (name, some value) => a.setOption name value
    | (name, none) => a.setWord name

/-- Reads an option and the argument behind it. -/
def setPair (a : Arguments) (name value : String) : Except Refusal Arguments :=
  if looksLikeOption value then .error .usage else a.setOption name value

theorem splitAttached_eq_none {arg name : String} (h : splitAttached arg = (name, none)) :
    name = arg := by
  unfold splitAttached at h
  dsimp only at h
  split at h
  · cases h
    rfl
  · cases h

theorem splitAttached_of_takesValue {name : String} (h : takesValue name = true) :
    looksLikeOption name = true ∧ splitAttached name = (name, none) := by
  simp only [takesValue, List.contains_eq_mem, List.mem_cons, List.not_mem_nil, or_false,
    decide_eq_true_eq] at h
  rcases h with rfl | rfl | rfl | rfl <;> decide +kernel

section
variable {arg : String} (a : Arguments) (value : String) (args : List String)

theorem ne_of_takesValue (ht : takesValue arg = true) : arg ≠ "--" := by
  rintro rfl
  revert ht
  decide

theorem parseFrom_single (hd : arg ≠ "--") (ht : takesValue arg = false) :
    parseFrom a (arg :: args) = a.setSingle arg >>= fun a => parseFrom a args := by
  rw [parseFrom.eq_3 a arg args hd]
  unfold setSingle
  by_cases hl : looksLikeOption arg = true
  · rw [if_neg (by simp [hl]), if_neg (by simp [hl])]
    cases hs : splitAttached arg with
    | mk name attached =>
      cases attached with
      | some value => rfl
      | none =>
        obtain rfl := splitAttached_eq_none hs
        simp only [ht]
  · rw [if_pos (by simp [hl]), if_pos (by simp [hl])]

theorem parseFrom_pair (ht : takesValue arg = true) :
    parseFrom a (arg :: value :: args) = a.setPair arg value >>= fun a => parseFrom a args := by
  obtain ⟨hl, hs⟩ := splitAttached_of_takesValue ht
  rw [parseFrom.eq_3 a arg _ (ne_of_takesValue ht), if_neg (by simp [hl])]
  unfold setPair
  simp only [hs, ht]
  split <;> rfl

theorem parseFrom_unfinished (ht : takesValue arg = true) : parseFrom a [arg] = .error .usage := by
  obtain ⟨hl, hs⟩ := splitAttached_of_takesValue ht
  rw [parseFrom.eq_3 a arg _ (ne_of_takesValue ht), if_neg (by simp [hl])]
  simp only [hs, ht]

end

-- Nothing that is set depends on the flag, and nothing but the flag sets it.
section
variable (b : Bool) (a : Arguments) {arg : String}

theorem setOption_withSummary (name value : String) :
    (a.withSummary b).setOption name value = (a.setOption name value).map (withSummary · b) := by
  unfold setOption
  simp only [withSummary]
  split
  · cases oncePath a.options value <;> rfl
  · cases once a.globalParam value <;> rfl
  · cases once a.importParam value <;> rfl
  · cases once a.file value <;> rfl
  · rfl

theorem setInput_withSummary (path : String) :
    (a.withSummary b).setInput path = (a.setInput path).map (withSummary · b) := by
  unfold setInput
  simp only [withSummary]
  cases oncePath a.input path <;> rfl

theorem setWord_withSummary (h : arg ≠ "--summary") :
    (a.withSummary b).setWord arg = (a.setWord arg).map (withSummary · b) := by
  unfold setWord
  simp only [h, false_and, if_false]
  split <;> rfl

theorem setSingle_withSummary (h : arg ≠ "--summary") :
    (a.withSummary b).setSingle arg = (a.setSingle arg).map (withSummary · b) := by
  unfold setSingle
  split
  · exact setInput_withSummary b a arg
  · split
    · exact setOption_withSummary b a _ _
    · next hs =>
      obtain rfl := splitAttached_eq_none hs
      exact setWord_withSummary b a h

theorem setPair_withSummary (name value : String) :
    (a.withSummary b).setPair name value = (a.setPair name value).map (withSummary · b) := by
  unfold setPair
  split
  · rfl
  · exact setOption_withSummary b a name value

end

theorem bind_withSummary {b : Bool} {x y : Except Refusal Arguments}
    {f g : Arguments → Except Refusal Arguments} (h : y = x.map (withSummary · b))
    (hf : ∀ a, x = .ok a → f (a.withSummary b) = (g a).map (withSummary · b)) :
    y >>= f = (x >>= g).map (withSummary · b) := by
  subst h
  cases x with
  | error e => rfl
  | ok a => exact hf a rfl

theorem summary_of_map {b : Bool} {x : Except Refusal Arguments} (hx : x = x.map (withSummary · b))
    {a : Arguments} (ha : x = .ok a) : a.summary = b := by
  subst ha
  injection hx with hx
  have hs := congrArg summary hx
  exact hs

theorem foldlM_setInput_withSummary (b : Bool) : ∀ (paths : List String) (a : Arguments),
    paths.foldlM setInput (a.withSummary b) = (paths.foldlM setInput a).map (withSummary · b)
  | [], _ => rfl
  | path :: paths, a => by
    rw [List.foldlM_cons, List.foldlM_cons]
    exact bind_withSummary (setInput_withSummary b a path) fun a _ =>
      foldlM_setInput_withSummary b paths a

/-- The flag is not among the arguments; after `--` it would be a path. -/
def LackSummary (args : List String) : Prop := "--summary" ∉ args.takeWhile (· != "--")

instance (args : List String) : Decidable (LackSummary args) :=
  inferInstanceAs (Decidable (¬"--summary" ∈ _))

section
variable {arg : String} {args : List String}

theorem lackSummary_cons_iff (hd : arg ≠ "--") :
    LackSummary (arg :: args) ↔ arg ≠ "--summary" ∧ LackSummary args := by
  unfold LackSummary
  rw [List.takeWhile_cons_of_pos (by simp [hd]), List.mem_cons, not_or, ne_comm]

theorem ne_of_setPair {a a' : Arguments} {name value : String} (h : a.setPair name value = .ok a') :
    value ≠ "--" := by
  rintro rfl
  have hl : looksLikeOption "--" = true := by decide +kernel
  unfold setPair at h
  rw [if_pos hl] at h
  cases h

end

theorem parseFrom_withSummary (b : Bool) : ∀ (args : List String) (a : Arguments), LackSummary args →
    parseFrom (a.withSummary b) args = (parseFrom a args).map (withSummary · b)
  | [], _, _ => rfl
  | arg :: args, a, h => by
    by_cases hd : arg = "--"
    · subst hd
      exact foldlM_setInput_withSummary b args a
    obtain ⟨hs, h⟩ := (lackSummary_cons_iff hd).mp h
    by_cases ht : takesValue arg = true
    · cases args with
      | nil =>
        rw [parseFrom_unfinished _ ht, parseFrom_unfinished _ ht]
        rfl
      | cons value args =>
        rw [parseFrom_pair _ _ _ ht, parseFrom_pair _ _ _ ht]
        apply bind_withSummary (setPair_withSummary b a arg value)
        intro a' ha
        exact parseFrom_withSummary b args a' ((lackSummary_cons_iff (ne_of_setPair ha)).mp h).2
    · have ht : takesValue arg = false := by simpa using ht
      rw [parseFrom_single _ _ hd ht, parseFrom_single _ _ hd ht]
      apply bind_withSummary (setSingle_withSummary b a hs)
      intro a' _
      exact parseFrom_withSummary b args a' h

theorem summary_of_parseFrom {args : List String} (h : LackSummary args) {a a' : Arguments}
    (ha : parseFrom a args = .ok a') : a'.summary = a.summary :=
  summary_of_map (parseFrom_withSummary a.summary args a h) ha

/-- The second arguments are the first ones with the flag at a place where an argument may stand. -/
inductive AddsSummary : List String → List String → Prop
  | here (args : List String) : AddsSummary args ("--summary" :: args)
  | single {arg : String} {plain full : List String} (hd : arg ≠ "--") (ht : takesValue arg = false)
      (h : AddsSummary plain full) : AddsSummary (arg :: plain) (arg :: full)
  | pair {name value : String} {plain full : List String} (ht : takesValue name = true)
      (h : AddsSummary plain full) : AddsSummary (name :: value :: plain) (name :: value :: full)

theorem setWord_summary {a : Arguments} (h : a.summary = false) :
    a.setWord "--summary" = .ok (a.withSummary true) := by
  unfold setWord
  rw [if_neg (by decide +kernel), if_pos (by simp [h])]
  rfl

theorem parseFrom_summary (args : List String) {a : Arguments} (h : a.summary = false) :
    parseFrom a ("--summary" :: args) = parseFrom (a.withSummary true) args := by
  have hl : ¬(!looksLikeOption "--summary") = true := by decide +kernel
  have hn : splitAttached "--summary" = ("--summary", none) := by decide +kernel
  rw [parseFrom_single a args (by decide) (by decide)]
  unfold setSingle
  rw [if_neg hl, hn]
  simp only [setWord_summary h]
  rfl

theorem parseFrom_of_addsSummary {plain full : List String} (h : AddsSummary plain full) :
    LackSummary plain → ∀ a : Arguments, a.summary = false →
      parseFrom a full = (parseFrom a plain).map (withSummary · true) := by
  induction h with
  | here args =>
    intro hl a ha
    rw [parseFrom_summary args ha]
    exact parseFrom_withSummary true args a hl
  | @single arg plain full hd ht _ ih =>
    intro hl a ha
    obtain ⟨hs, hl⟩ := (lackSummary_cons_iff hd).mp hl
    rw [parseFrom_single a full hd ht, parseFrom_single a plain hd ht]
    cases hr : a.setSingle arg with
    | error e => rfl
    | ok a' =>
      have hk := summary_of_map (setSingle_withSummary a.summary a hs) hr
      exact ih hl a' (hk.trans ha)
  | @pair name value plain full ht _ ih =>
    intro hl a ha
    obtain ⟨_, hl⟩ := (lackSummary_cons_iff (ne_of_takesValue ht)).mp hl
    rw [parseFrom_pair a value full ht, parseFrom_pair a value plain ht]
    cases hr : a.setPair name value with
    | error e => rfl
    | ok a' =>
      have hk := summary_of_map (setPair_withSummary a.summary a name value) hr
      exact ih ((lackSummary_cons_iff (ne_of_setPair hr)).mp hl).2 a' (hk.trans ha)

end Arguments

/-! ## The two ways to print -/

open Arguments

theorem asyncCell_withSummary (w : World) (a : Arguments) (b : Bool) :
    w.asyncCell (a.withSummary b) = w.asyncCell a := rfl

section
variable {w : World} {plain full : List String}

theorem parse_of_addsSummary (h : AddsSummary plain full) (hl : LackSummary plain) :
    parse full = (parse plain).map (withSummary · true) :=
  parseFrom_of_addsSummary h hl {} rfl

theorem run_of_refused {args args' : List String} {e : Refusal} (h : parse args = .error e)
    (h' : parse args' = .error e) : run w args' = run w args := by
  unfold run
  rw [h, h']

end

/-- A world without files. -/
def stdinWorld (cell : String) : World where
  file _ := .error .notFound
  stdin := .ok cell.toUTF8

/-- Quotes, a backslash, a control character and a letter that is not an ASCII one. -/
def quotedCell : String := "import \x7ba as ü\x7d from \"m\"\nlet s = \"\\n\x1f\""

end Command

end NotebookCell
