import NotebookCell.Proofs.RelatedTexts

/-!
# What options and tags decide

The tags of a text decide nothing but tags, the names of the parameters nothing but inserted
characters, and the file name of the options nothing but itself.
-/

namespace NotebookCell

open Script TaggedText

/-! ## Relations of texts -/

def SameTyped (t t' : TaggedText) : Prop := typedPart t = typedPart t'

theorem mirrors_sameTyped (name name' : String) : Mirrors SameTyped name name' where
  nil := rfl
  append h h' := by
    unfold SameTyped at h h' ⊢
    rw [typedPart_append, typedPart_append, h, h']
  inserted _ := rfl
  named before after := by
    unfold SameTyped
    rw [typedPart_inserted, typedPart_inserted]

theorem mirrors_sameChars (name : String) : Mirrors SameChars name name where
  toGlues := glues_sameChars
  inserted _ := rfl
  named _ _ := rfl

/-- The same character, inserted in both texts or typed at the same offset of either file. -/
def SameButFile (file file' : Option String) (c c' : TaggedChar) : Prop :=
  c.char = c'.char ∧ ((c.origin = none ∧ c'.origin = none) ∨
    ∃ offset, c.origin = some ⟨offset, file⟩ ∧ c'.origin = some ⟨offset, file'⟩)

theorem mirrors_sameButFile (file file' : Option String) (name : String) :
    Mirrors (List.Forall₂ (SameButFile file file')) name name := by
  have hinserted : ∀ s, List.Forall₂ (SameButFile file file') (inserted s) (inserted s) := by
    intro s
    rw [List.forall₂_same]
    intro c hc
    obtain ⟨ch, -, rfl⟩ := List.mem_map.mp hc
    exact ⟨rfl, .inl ⟨rfl, rfl⟩⟩
  exact ⟨⟨.nil, fun h h' => List.rel_append h h'⟩, hinserted, fun _ _ => hinserted _⟩

theorem sameChars_of_forall₂ {C : TaggedChar → TaggedChar → Prop} (hC : ∀ c c', C c c' → c.char = c'.char)
    {t t' : TaggedText} (h : List.Forall₂ C t t') : SameChars t t' := by
  induction h with
  | nil => rfl
  | cons hc _ ih => exact congrArg₂ List.cons (hC _ _ hc) ih

theorem forall₂_of_sameChars {t t' : TaggedText} (h : SameChars t t') :
    List.Forall₂ (fun c c' => c.char = c'.char) t t' := by
  unfold SameChars chars at h
  rwa [← List.forall₂_eq_eq_eq, List.forall₂_map_left_iff, List.forall₂_map_right_iff] at h

theorem forall₂_slotsOf {C : TaggedChar → TaggedChar → Prop} (hC : ∀ c c', C c c' → c.char = c'.char)
    {t t' : TaggedText} (h : List.Forall₂ C t t') :
    List.Forall₂ (List.Forall₂ C) (Draft.slotsOf t) (Draft.slotsOf t') := by
  induction h with
  | nil => exact .nil
  | cons hc _ ih =>
    rw [Draft.slotsOf, Draft.slotsOf, hC _ _ hc]
    refine .cons (.cons hc .nil) (List.rel_append ?_ ih)
    rw [List.forall₂_same]
    intro s hs
    rw [List.eq_of_mem_replicate hs]
    exact .nil

theorem alike_ofText {C : TaggedChar → TaggedChar → Prop} (hC : ∀ c c', C c c' → c.char = c'.char)
    {t t' : TaggedText} (h : List.Forall₂ C t t') :
    (Draft.ofText t).Alike (List.Forall₂ C) (Draft.ofText t') := by
  have hs := forall₂_slotsOf hC h
  constructor
  · simpa [Draft.size, Draft.ofText] using hs.length_eq
  · intro i
    rw [Draft.held_ofText, Draft.held_ofText]
    generalize Draft.slotsOf t = l at hs
    generalize Draft.slotsOf t' = l' at hs
    clear h
    induction hs generalizing i with
    | nil => exact .nil
    | cons h _ ih =>
      cases i with
      | zero => exact h
      | succ i => simpa using ih i

theorem Draft.Alike.mono {R S : TaggedText → TaggedText → Prop} (hRS : ∀ t t', R t t' → S t t')
    {d d' : Draft} (h : d.Alike R d') : d.Alike S d' :=
  ⟨h.size_eq, fun i => hRS _ _ (h.held i)⟩

/-! ## Cells in two files -/

section
variable {file file' : Option String}

theorem SameButFile.offset {c c' : TaggedChar} (h : SameButFile file file' c c') :
    c.offset = c'.offset := by
  rcases h.2 with ⟨h1, h2⟩ | ⟨off, h1, h2⟩ <;> simp [TaggedChar.offset, h1, h2]

theorem firstOffset?_congr {t t' : TaggedText} (h : List.Forall₂ (SameButFile file file') t t') :
    t.firstOffset? = t'.firstOffset? := by
  unfold firstOffset?
  induction h with
  | nil => rfl
  | cons hc _ ih => rw [List.findSome?_cons, List.findSome?_cons, hc.offset, ih]

theorem text_congr {t t' : TaggedText} (h : List.Forall₂ (SameButFile file file') t t') :
    t.text = t'.text :=
  congrArg String.ofList (sameChars_of_forall₂ (fun _ _ h => h.1) h)

theorem offsetBehind?_congr {d d' : Draft} (h : d.Alike (List.Forall₂ (SameButFile file file')) d') :
    d.offsetBehind? = d'.offsetBehind? := by
  have hslots : d.slots.toList.map firstOffset? = d'.slots.toList.map firstOffset? := by
    have hsize : d.slots.size = d'.slots.size := h.size_eq
    refine List.ext_getElem (by simp [hsize]) fun i hi hi' => ?_
    have hheld := firstOffset?_congr (h.held i)
    simp only [List.length_map, Array.length_toList] at hi hi'
    simpa [Draft.held, hi, hi'] using hheld
  have hfind : ∀ (slots : List Slot) (n : Nat), (slots.take n).reverse.findSome? firstOffset? =
      ((slots.map firstOffset?).take n).reverse.findSome? id := by
    intro slots n
    rw [← List.map_take, ← List.map_reverse, List.findSome?_map]
    rfl
  funext position
  unfold Draft.offsetBehind?
  rw [hfind, hfind, hslots, h.size_eq]

theorem sameButFile_tagFrom (cs : List Char) (offset : Nat) :
    List.Forall₂ (SameButFile file file') (tagFrom file offset cs) (tagFrom file' offset cs) := by
  induction cs generalizing offset with
  | nil => exact .nil
  | cons c cs ih => exact .cons ⟨rfl, .inr ⟨offset, rfl, rfl⟩⟩ (ih _)

theorem sameButFile_cellInWrapper (cell head : String) : List.Forall₂ (SameButFile file file')
    (cellInWrapper cell file head) (cellInWrapper cell file' head) := by
  have h := mirrors_sameButFile file file' ""
  exact h.append (h.append (h.inserted _) (sameButFile_tagFrom _ _)) (h.inserted _)

end

/-- The cells between the readings differ in nothing but the file of their characters. -/
structure AwaitingCell.SameButFile (file file' : Option String) (c c' : AwaitingCell) : Prop where
  globalParam : c.globalParam = c'.globalParam
  importParam : c.importParam = c'.importParam
  rows : c.imported.rows = c'.imported.rows
  effects : c.imported.effects = c'.imported.effects
  draft : c.draft.Alike (List.Forall₂ (NotebookCell.SameButFile file file')) c'.draft

theorem agree_ofModule {o o' : Options} (hg : o.globalParam = o'.globalParam)
    (hi : o.importParam = o'.importParam) (cell : String) (m : Module) :
    Agree (AwaitingCell.SameButFile o.file o'.file) (AwaitingCell.ofModule o cell m)
      (AwaitingCell.ofModule o' cell m) := by
  have hnames : parameterNames o m.tree.names = parameterNames o' m.tree.names := by
    unfold parameterNames
    rw [hg, hi]
  unfold AwaitingCell.ofModule
  rw [hnames]
  obtain ⟨globalParam, importParam⟩ := parameterNames o' m.tree.names
  have hwrap := @sameButFile_cellInWrapper o.file o'.file cell (wrapperHead globalParam importParam)
  have hdraft := alike_ofText (fun _ _ h => h.1) hwrap
  have hsite : (ImportSite.ofCell cell o.file (wrapperHead globalParam importParam) importParam).Alike
      (List.Forall₂ (SameButFile o.file o'.file))
      (ImportSite.ofCell cell o'.file (wrapperHead globalParam importParam) importParam) :=
    ⟨rfl, hdraft, hdraft.mono fun _ _ h => sameChars_of_forall₂ (fun _ _ h => h.1) h⟩
  have hR := mirrors_sameButFile o.file o'.file importParam
  refine (agree_apply hR hsite m).bind fun x y hxy => ?_
  obtain ⟨himported, hd⟩ := hxy
  refine .ok ⟨rfl, rfl, himported.rows, himported.effects, ?_⟩
  exact alike_ofText (fun _ _ h => h.1) (hd.source hR.toGlues)

theorem AwaitingCell.SameButFile.statements {file file' : Option String} {c c' : AwaitingCell}
    (h : c.SameButFile file file' c') : c.statements = c'.statements := by
  have htext : c.draft.text = c'.draft.text :=
    text_congr (h.draft.source (mirrors_sameButFile file file' "").toGlues)
  unfold AwaitingCell.statements readWrapped
  rw [htext, offsetBehind?_congr h.draft]

/-- The asynchronous functions have the same text, parameters and summary, and their characters
differ in nothing but the file. -/
structure AsyncCell.SameButFile (file file' : Option String) (r r' : AsyncCell) : Prop where
  code : r.code = r'.code
  globalParam : r.globalParam = r'.globalParam
  importParam : r.importParam = r'.importParam
  summary : r.summary = r'.summary
  source : List.Forall₂ (NotebookCell.SameButFile file file') r.source r'.source

theorem agree_publish {file file' : Option String} {c c' : AwaitingCell}
    (h : AwaitingCell.SameButFile file file' c c') (body : List Tree) :
    Agree (AsyncCell.SameButFile file file') (c.publish body) (c'.publish body) := by
  have hR := mirrors_sameButFile file file' c.globalParam
  have hedits : List.Forall₂ (Edit.Alike (List.Forall₂ (SameButFile file file'))) (c.edits body)
      (c'.edits body) := by
    unfold AwaitingCell.edits
    rw [← h.globalParam]
    exact List.rel_append (alike_publishBody hR body).edits (alike_returnEdits hR body)
  unfold AwaitingCell.publish
  refine ((h.draft.applyAll hR.toGlues hedits).mapError _).bind fun d d' hd => ?_
  have hsource := hd.source hR.toGlues
  refine .ok ⟨text_congr hsource, h.globalParam, h.importParam, ?_, hsource⟩
  simp only [h.rows, h.effects, h.globalParam]

theorem agree_ofText {o o' : ValidOptions} (hg : o.options.globalParam = o'.options.globalParam)
    (hi : o.options.importParam = o'.options.importParam) (cell : String) :
    Agree (AsyncCell.SameButFile o.options.file o'.options.file) (AsyncCell.ofText o cell)
      (AsyncCell.ofText o' cell) := by
  unfold AsyncCell.ofText
  refine (Agree.refl _).bind fun m m' hm => ?_
  subst hm
  refine (agree_ofModule hg hi cell m).bind fun c c' hc => ?_
  rw [hc.statements]
  refine (Agree.refl _).bind fun body body' hb => ?_
  subst hb
  exact agree_publish hc body

/-! ## Passes -/

/-- The draft in which the declarations of a body are published. -/
def Draft.publish (d : Draft) (G : String) (body : List Tree) : Except EditFault (Published × Draft) := do
  let d' ← d.applyAll (publishBody G body).edits
  return (publishBody G body, d')

structure SamePublished (S : TaggedText → TaggedText → Prop) (x y : Published × Draft) : Prop where
  count : x.1.count = y.1.count
  defs : x.1.defs = y.1.defs
  source : S x.2.source y.2.source

structure SameImported (S : TaggedText → TaggedText → Prop) (x y : AwaitedImports × Draft) : Prop where
  count : x.1.count = y.1.count
  rows : x.1.rows = y.1.rows
  effects : x.1.effects = y.1.effects
  source : S x.2.source y.2.source

section
variable {R : TaggedText → TaggedText → Prop}

theorem agree_publishing {G G' : String} (hR : Mirrors R G G') {d d' : Draft} (h : d.Alike R d')
    (body : List Tree) : Agree (SamePublished R) (d.publish G body) (d'.publish G' body) := by
  have hp := alike_publishBody hR body
  unfold Draft.publish
  refine (h.applyAll hR.toGlues hp.edits).bind fun d₁ d₁' h₁ => ?_
  exact .ok ⟨hp.count, hp.defs, h₁.source hR.toGlues⟩

theorem agree_importing {s s' : ImportSite} (hR : Mirrors R s.importParam s'.importParam)
    (h : s.Alike R s') (m : Module) : Agree (SameImported R) (s.apply m) (s'.apply m) :=
  (agree_apply hR h m).mono fun _ _ hxy =>
    ⟨hxy.1.edits.length_eq, hxy.1.rows, hxy.1.effects, hxy.2.source hR.toGlues⟩

end

theorem alike_ofText_of_chars {t t' : TaggedText} (h : t.chars = t'.chars) :
    (Draft.ofText t).Alike SameChars (Draft.ofText t') :=
  (alike_ofText (fun _ _ h => h) (forall₂_of_sameChars h)).mono fun _ _ h =>
    sameChars_of_forall₂ (fun _ _ h => h) h

/-- The file name of the options reaches nothing but the origins of the characters of the cell. The
names of the parameters reach nothing but inserted characters, and the tags nothing but tags. -/
theorem runs_agree :
    (∀ (o o' : ValidOptions) (cell : String), o.options.globalParam = o'.options.globalParam →
      o.options.importParam = o'.options.importParam →
      Agree (AsyncCell.SameButFile o.options.file o'.options.file) (AsyncCell.ofText o cell)
        (AsyncCell.ofText o' cell)) ∧
    (∀ (d : Draft) (G G' : String) (body : List Tree),
      Agree (SamePublished SameTyped) (d.publish G body) (d.publish G' body)) ∧
    (∀ (d : Draft) (base : Nat) (I I' : String) (m : Module),
      Agree (SameImported SameTyped) (ImportSite.apply ⟨d, base, I⟩ m)
        (ImportSite.apply ⟨d, base, I'⟩ m)) ∧
    (∀ t t' : TaggedText, t.chars = t'.chars → (Draft.ofText t).Alike SameChars (Draft.ofText t')) ∧
    ∀ d d' : Draft, d.Alike SameChars d' →
      (∀ (G : String) (body : List Tree),
        Agree (SamePublished SameChars) (d.publish G body) (d'.publish G body)) ∧
      ∀ (base : Nat) (I : String) (m : Module),
        Agree (SameImported SameChars) (ImportSite.apply ⟨d, base, I⟩ m)
          (ImportSite.apply ⟨d', base, I⟩ m) := by
  refine ⟨fun o o' cell hg hi => agree_ofText hg hi cell, ?_, ?_, fun t t' => alike_ofText_of_chars, ?_⟩
  · intro d G G' body
    have h : d.Alike SameTyped d := ⟨rfl, fun _ => rfl⟩
    exact agree_publishing (mirrors_sameTyped G G') h body
  · intro d base I I' m
    have h : d.Alike SameTyped d := ⟨rfl, fun _ => rfl⟩
    have hc : d.Alike SameChars d := ⟨rfl, fun _ => rfl⟩
    have hs : ImportSite.Alike SameTyped ⟨d, base, I⟩ ⟨d, base, I'⟩ := ⟨rfl, h, hc⟩
    exact agree_importing (mirrors_sameTyped I I') hs m
  · intro d d' h
    refine ⟨fun G body => agree_publishing (mirrors_sameChars G) h body, fun base I m => ?_⟩
    have hs : ImportSite.Alike SameChars ⟨d, base, I⟩ ⟨d', base, I⟩ := ⟨rfl, h, h⟩
    exact agree_importing (mirrors_sameChars I) hs m

def fileOptions : ValidOptions := ⟨{ file := some "a.js" }, by decide +kernel⟩

/-- `let x` -/
def unsetDeclaration : Tree :=
  .node (.varDecl .block) ⟨0, 5⟩ [.node .declarator ⟨4, 5⟩ [.node (.name "x") ⟨4, 5⟩ [], .absent]]

theorem runs_agree_sampleCell :
    Agree (AsyncCell.SameButFile (some "a.js") none) (AsyncCell.ofText fileOptions sampleCell)
      (AsyncCell.ofText sampleOptions sampleCell) ∧
    (AsyncCell.ofText fileOptions sampleCell).toBool ∧
    Agree (SamePublished SameChars) ((Draft.ofText (typed "let x" none)).publish "G" [unsetDeclaration])
      ((Draft.ofText (inserted "let x")).publish "G" [unsetDeclaration]) ∧
    ((Draft.ofText (inserted "let x")).publish "G" [unsetDeclaration]).toBool := by
  obtain ⟨hfile, -, -, htext, htags⟩ := runs_agree
  have h := htext (typed "let x" none) (inserted "let x") (by decide +kernel)
  refine ⟨hfile fileOptions sampleOptions sampleCell rfl rfl, by decide +kernel, ?_, by decide +kernel⟩
  exact (htags _ _ h).1 "G" [unsetDeclaration]

end NotebookCell
