import NotebookCell.Proofs.CellText
import NotebookCell.Proofs.Locality

/-!
# What becomes of the text of statements

Between its statements the text of a cell stays, and so do statements that declare nothing for the
cell. What returns its value or publishes a function or a class stands around the text of it. A
variable declaration gets no semicolon: what follows its last declarator is what followed it, and
where a line break ended it nothing separates it from the next statement.
-/

namespace NotebookCell

open Script TaggedText

/-! ## Edited spans -/

/-- The text of a span with something before and after a range of it. -/
def enclosed (held : Nat → Slot) (s range : Span) (before after : String) : TaggedText :=
  stretch held s.start range.start ++ inserted before ++ stretch held range.start range.stop ++
    inserted after ++ stretch held range.stop s.stop

theorem stretch_enclose {s : Span} {es : List Edit} {held : Nat → Slot} (hs : s.start < s.stop)
    (before after : String) :
    stretch (fun i => actAll (es ++ enclose s before after) i (held i)) s.start s.stop =
      inserted before ++ stretch (fun i => actAll es i (held i)) s.start s.stop ++ inserted after := by
  simp only [actAll_append, enclose, actAll_cons, actAll_nil]
  rw [stretch_act_append hs, stretch_act_prepend hs]

section
variable {s range : Span} {es : List Edit} {held held' : Nat → Slot}
  (hheld : ∀ i, held' i = actAll es i (held i))
include hheld

theorem stretch_of_actLike_nil (h : ActLike s es []) :
    stretch held' s.start s.stop = stretch held s.start s.stop := by
  refine stretch_congr fun i hi hi' => ?_
  rw [hheld, h i hi hi', actAll_nil]

theorem stretch_of_actLike_enclose {before after : String} (h1 : s.start ≤ range.start)
    (h2 : range.start < range.stop) (h3 : range.stop ≤ s.stop)
    (h : ActLike s es (enclose range before after)) :
    stretch held' s.start s.stop = enclosed held s range before after := by
  have hin := insertsIn_enclose (Nat.le_refl range.start) h2 (Nat.le_refl _) before after
  have hleft : ActLike ⟨s.start, range.start⟩ es [] :=
    ActLike.trans (s := ⟨s.start, range.start⟩)
      (h.mono (Nat.le_refl _) (Nat.le_trans (Nat.le_of_lt h2) h3))
      (actLike_nil fun e he => ⟨range, hin e he, .inr (Nat.le_refl _)⟩)
  have hright : ActLike ⟨range.stop, s.stop⟩ es [] :=
    ActLike.trans (s := ⟨range.stop, s.stop⟩)
      (h.mono (Nat.le_trans h1 (Nat.le_of_lt h2)) (Nat.le_refl _))
      (actLike_nil fun e he => ⟨range, hin e he, .inl (Nat.le_refl _)⟩)
  have hbefore : stretch held' s.start range.start = stretch held s.start range.start :=
    stretch_of_actLike_nil hheld hleft
  have hbehind : stretch held' range.stop s.stop = stretch held range.stop s.stop :=
    stretch_of_actLike_nil hheld hright
  have hrange : stretch held' range.start range.stop =
      inserted before ++ stretch held range.start range.stop ++ inserted after := by
    rw [funext hheld, stretch_of_actLike (h.mono h1 h3)]
    exact @stretch_enclose range [] held h2 before after
  rw [← stretch_append (b := range.start) h1 (by omega),
    ← stretch_append (b := range.stop) (by omega) h3, hbefore, hrange, hbehind]
  simp only [enclosed, List.append_assoc]

end

/-! ## Nodes that publish nothing -/

section
variable (G : String)

theorem isLexical_of_isDeclaration {t : Tree} (hd : t.label.isDeclaration) (hh : isHoisted t = false) :
    isLexical t := by
  obtain ⟨label, span, children⟩ := t
  cases label with
  | varDecl kind => cases kind <;> first | rfl | cases hh
  | funDecl => cases hh
  | classDecl => rfl
  | _ => cases hd

theorem publish_lexical_eq_none {label : Label} {span : Span} {children : List Tree} {place : Place}
    (hl : label.isDeclaration) (hh : isHoisted (.node label span children) = false)
    (hf : fitsAll (label.parts children.length) children) (hp : place ≠ .body) :
    publish G place (.node label span children) = .none := by
  cases label with
  | funDecl => cases hh
  | classDecl =>
    obtain ⟨target, cls, rfl, hn, -⟩ := fitsAll_pair hf
    obtain ⟨name, nameSpan, rfl⟩ := eq_name_of_fits hn
    rw [publish, if_neg hp]
  | varDecl kind =>
    rw [publish, if_neg]
    rintro (rfl | hb)
    · cases hh
    · exact hp hb
  | _ => cases hl

mutual

theorem publish_eq_none : ∀ (t : Tree) {part : Part} (place : Place), t.fits part →
    (outerNodes t).filter isHoisted = [] → (place = .body → isLexical t = false) →
      publish G place t = .none
  | .node label span children, part, place, hf, hh, hp => by
    simp only [Tree.fits, Bool.and_eq_true] at hf
    cases hd : label.isDeclaration with
    | true =>
      rw [filter_outerNodes_declaration hd hf.2] at hh
      have hh : isHoisted (.node label span children) = false := by simpa using hh
      refine publish_lexical_eq_none G hd hh hf.2 fun hb => ?_
      have hlex := isLexical_of_isDeclaration (t := .node label span children) hd hh
      rw [hp hb] at hlex
      cases hlex
    | false =>
      rw [publish_of_not_isDeclaration G hd]
      split
      · rfl
      · rename_i hs
        rw [outerNodes, if_neg hs, List.filter_cons] at hh
        refine publishFrom_eq_none children (firstPlace label) hf.2 ?_ ?_
        · split at hh
          · cases hh
          · exact hh
        · cases label <;> simp [firstPlace]

theorem publishFrom_eq_none : ∀ (ts : List Tree) {parts : List Part} (first : Place),
    fitsAll parts ts → (outerNodesOf ts).filter isHoisted = [] → first ≠ .body →
      publishFrom G first ts = .none
  | [], _, _, _, _, _ => rfl
  | t :: ts, parts, first, hf, hh, hp => by
    obtain ⟨part, rest, rfl, ht, hts⟩ := fitsAll_cons hf
    rw [outerNodesOf, List.filter_append, List.append_eq_nil_iff] at hh
    rw [publishFrom, publish_eq_none t first ht hh.1 fun hb => absurd hb hp,
      publishFrom_eq_none ts .inner hts hh.2 (by simp)]
    rfl

end

theorem publish_body_eq_none {t : Tree} (hf : t.fits .statement) (h : cellDeclarations [t] = []) :
    publish G .body t = .none := by
  rw [cellDeclarations, List.append_eq_nil_iff, outerNodesOf, outerNodesOf, List.append_nil] at h
  refine publish_eq_none G t .body hf h.1 fun _ => ?_
  simpa using h.2

end

/-! ## Variable declarations -/

section
variable {within : Span} {ds : List Tree} {last : Tree}

theorem stop_le_of_getLast? (ho : inOrder ds) (hlast : ds.getLast? = some last)
    (hl : ∀ u ∈ ds, u.label ≠ .absent ∧ u.nestedIn within) {u : Tree} (hu : u ∈ ds) :
    u.span.stop ≤ last.span.stop := by
  obtain ⟨front, rfl⟩ := List.getLast?_eq_some_iff.mp hlast
  rcases List.mem_append.mp hu with hm | hm
  · have hb := isBefore_of_inOrder_append ho hm (List.mem_singleton.mpr rfl)
    obtain ⟨hpl, hpn⟩ := hl last (by simp)
    have hs := nestedIn_span hpl hpn
    rw [isBefore_iff (hl u hu).1 hpl] at hb
    omega
  · rcases List.mem_singleton.mp hm with rfl
    exact Nat.le_refl _

theorem nestedIn_of_getLast? (ho : inOrder ds) (hlast : ds.getLast? = some last)
    (hl : ∀ u ∈ ds, u.label ≠ .absent ∧ u.nestedIn within) :
    ∀ u ∈ ds, u.nestedIn ⟨within.start, last.span.stop⟩ := by
  intro u hu
  obtain ⟨hul, hun⟩ := hl u hu
  exact nestedIn_mono (nestedIn_self hul hun) (nestedIn_span hul hun).1
    (stop_le_of_getLast? ho hlast hl hu)

end

/-- Where the start of a span is exchanged for a text, the text is followed by what the edits behind it
make of the rest. -/
theorem stretch_of_actLike_replace {s : Span} {a b : Nat} {es behind : List Edit} {held held' : Nat → Slot}
    {before : TaggedText} (hheld : ∀ i, held' i = actAll es i (held i))
    (h : ActLike s es (.replace ⟨s.start, a⟩ before :: behind)) (h1 : s.start < a) (hab : a ≤ b)
    (hb : b ≤ s.stop) (hbehind : ∀ e ∈ behind, e.InsertsIn ⟨a, s.stop⟩) :
    stretch held' s.start b = before ++ stretch (fun i => actAll behind i (held i)) a b := by
  have hact : ∀ i, s.start ≤ i → i < s.stop → held' i = actAll behind i
      (if i = s.start then before else if s.start < i ∧ i < a then [] else held i) := fun i hi hi' => by
    rw [hheld, h i hi hi', actAll_cons]
    rfl
  have hout : ∀ i, i < a → ∀ x, actAll behind i x = x := fun i hi x => by
    refine actAll_of_outside (fun e he => ?_) x
    have hin := hbehind e he
    have hstart : a ≤ e.range.start := hin.start_le
    exact ⟨hin.start_lt_stop, by omega⟩
  have hfirst : stretch held' s.start a = before := by
    rw [stretch_eq_first h1]
    · rw [hact _ (Nat.le_refl _) (by omega), hout _ h1, if_pos rfl]
    · intro i hi hi'
      rw [hact i (by omega) (by omega), hout i hi', if_neg (by omega), if_pos ⟨hi, hi'⟩]
  rw [← stretch_append (b := a) (by omega) hab, hfirst]
  congr 1
  refine stretch_congr fun i hi hi' => ?_
  rw [hact i (by omega) (by omega), if_neg (by omega), if_neg (by omega)]

/-- A declaration that is opened and closed so is opened by the text in the place of its keyword and
closed behind its last part, and the rest of it stays. -/
theorem stretch_of_actLike_declaration {s : Span} {a b : Nat} {es middle : List Edit} {close : Span}
    {held held' : Nat → Slot} {before after : TaggedText} (hheld : ∀ i, held' i = actAll es i (held i))
    (h : ActLike s es (.replace ⟨s.start, a⟩ before :: (middle ++ [.append close after])))
    (hclose : close.stop = b) (h1 : s.start < a) (h2 : a < b) (h3 : b ≤ s.stop)
    (hmiddle : ∀ e ∈ middle, e.InsertsIn ⟨a, b⟩) (hafter : (Edit.append close after).InsertsIn ⟨a, b⟩) :
    stretch held' s.start b = before ++ stretch (fun i => actAll middle i (held i)) a b ++ after ∧
      stretch held' b s.stop = stretch held b s.stop := by
  subst hclose
  have hbehind : ∀ e ∈ middle ++ [.append close after], e.InsertsIn ⟨a, close.stop⟩ :=
    List.forall_mem_append.mpr ⟨hmiddle, List.forall_mem_singleton.mpr hafter⟩
  have hopen := fun b hab hb => stretch_of_actLike_replace (b := b) hheld h h1 hab hb fun e he =>
    (hbehind e he).mono (Nat.le_refl _) h3
  constructor
  · rw [hopen _ (Nat.le_of_lt h2) h3, List.append_assoc]
    simp only [actAll_append, actAll_cons, actAll_nil]
    rw [stretch_act_append h2]
  · refine stretch_congr fun i hi hi' => ?_
    have hopened := Edit.act_of_outside (e := .replace ⟨s.start, a⟩ before) h1
      (.inr (Nat.le_trans (Nat.le_of_lt h2) hi)) (held i)
    rw [hheld, h i (by omega) hi', actAll_cons, hopened]
    refine actAll_of_outside (fun e he => ?_) _
    have hin := hbehind e he
    have hstop : e.range.stop ≤ close.stop := hin.stop_le
    exact ⟨hin.start_lt_stop, by omega⟩

section
variable (G : String) (kind : VarKind) {within span : Span} {ds : List Tree} {last : Tree}

theorem edits_declaration (form : DeclarationForm) (span : Span) (ds : List Tree) :
    (publishDeclaration G kind form span ds).edits =
      .replace ⟨span.start, span.start + kind.word.utf8ByteSize⟩
          (inserted (if form = .statement then "void (" else "")) ::
        ((Published.all (publishDeclarator G kind form) ds).edits ++
          if form = .statement then closeDeclaration ds else []) := rfl

theorem nestedIn_declarators (hf : fitsAll (List.replicate ds.length .declarator) ds)
    (hn : (Script.Tree.node (.varDecl kind) span ds).nestedIn within) : ∀ d ∈ ds,
      d.label ≠ .absent ∧ d.nestedIn ⟨span.start + kind.word.utf8ByteSize, span.stop⟩ := fun _ hd =>
  ⟨label_ne_absent_of_fits (fits_of_mem hf hd) rfl,
    nestedIn_of_mem (nestedIn_node (by simp) hn).2.2.2 hd⟩

/-- In a declaration that stays a statement, the edits of its declarators stand between the opening and
the parenthesis that closes it. -/
theorem stretch_of_actLike_statement {es : List Edit} {held held' : Nat → Slot}
    (hheld : ∀ i, held' i = actAll es i (held i))
    (hlike : ActLike span es (publishDeclaration G kind .statement span ds).edits)
    (hf : fitsAll (List.replicate ds.length .declarator) ds) (ho : inOrder ds)
    (hn : (Script.Tree.node (.varDecl kind) span ds).nestedIn within) (hlast : ds.getLast? = some last) :
    stretch held' span.start last.span.stop = inserted "void (" ++
        stretch (fun i => actAll (Published.all (publishDeclarator G kind .statement) ds).edits i (held i))
          (span.start + kind.word.utf8ByteSize) last.span.stop ++ inserted ")" ∧
      stretch held' last.span.stop span.stop = stretch held last.span.stop span.stop := by
  have hl := nestedIn_declarators kind hf hn
  obtain ⟨hll, hln⟩ := hl last (List.mem_of_getLast? hlast)
  obtain ⟨h1, h2, h3⟩ : span.start + kind.word.utf8ByteSize ≤ last.span.start ∧ _ ∧ _ :=
    nestedIn_span hll hln
  have hclose : closeDeclaration ds = [.append last.span (inserted ")")] := by
    rw [closeDeclaration, hlast]
  rw [edits_declaration, if_pos rfl, if_pos rfl, hclose] at hlike
  exact stretch_of_actLike_declaration hheld hlike rfl (start_lt_word kind span)
    (Nat.lt_of_le_of_lt h1 h2) h3
    (Published.InsertsIn.all fun u hu =>
      insertsIn_declarator G kind .statement (nestedIn_of_getLast? ho hlast hl u hu))
    ⟨h1, h2, Nat.le_refl _, typedPart_inserted _⟩

end

/-! ## Cells -/

/-- What a declaration of a function or a class is opened by, and what of it is enclosed. -/
def opening? (G : String) : Tree → Option (String × Tree)
  | .node .funDecl _ [.node (.name name) _ _, fn] =>
    some ("void (" ++ G ++ "." ++ name ++ " = ", fn)
  | .node .classDecl _ [.node (.name name) _ _, cls] => some (G ++ "." ++ name ++ " = (", cls)
  | _ => none

/-- One text is the other with the statements rewritten that are found in it. -/
structure StatementsRewritten (G : String) (body : List Tree) (held held' : Nat → Slot) : Prop where
  between : ∀ a b, (∀ t ∈ body, t.span.stop ≤ a ∨ b ≤ t.span.start) →
    stretch held' a b = stretch held a b
  kept : ∀ t ∈ body, cellDeclarations [t] = [] → (body.getLast? ≠ some t ∨ t.label ≠ .exprStmt) →
    stretch held' t.span.start t.span.stop = stretch held t.span.start t.span.stop
  returned : ∀ span value, body.getLast? = some (.node .exprStmt span [value]) →
    stretch held' span.start span.stop = enclosed held span value.span "return (" ")"
  published : ∀ d ∈ cellDeclarations body, ∀ before part, opening? G d = some (before, part) →
    stretch held' d.span.start d.span.stop = enclosed held d.span part.span before ");"
  declared : ∀ kind span ds last, .node (.varDecl kind) span ds ∈ cellDeclarations body →
    .node (.varDecl kind) span ds ∉ loopHeads body → ds.getLast? = some last →
      (∃ text, stretch held' span.start last.span.stop =
        inserted "void (" ++ text ++ inserted ")") ∧
      stretch held' last.span.stop span.stop = stretch held last.span.stop span.stop

section
variable (G : String) {body : List Tree} {within : Span} (hf : ∀ t ∈ body, t.fits .statement)
  (hn : ∀ t ∈ body, t.nestedIn within)
include hf hn

theorem exists_insertsIn_statement {e : Edit} (he : e ∈ (publishBody G body).edits ++ returnEdits body) :
    ∃ t ∈ body, e.InsertsIn t.span := by
  rcases List.mem_append.mp he with he | he
  · obtain ⟨t, ht, he⟩ := mem_edits_all he
    exact ⟨t, ht, (insertsIn_span G .body (hf t ht) (hn t ht) e he).2⟩
  · obtain ⟨last, hlast, -, hin⟩ := insertsIn_returnEdits hf hn he
    exact ⟨last, List.mem_of_getLast? hlast, hin⟩

theorem nestedIn_of_mem_cellDeclarations {d : Tree} (hd : d ∈ cellDeclarations body) :
    d.nestedIn within := by
  have hl := label_ne_absent (isDeclaration_of_mem_cellDeclarations hd)
  obtain ⟨t, ht, hm, -⟩ := exists_of_mem_cellDeclarations hd
  exact (nestedIn_of_mem_outerNodes hl t (hf t ht) (hn t ht) hm).2

/-- The declaration stands in the body, with its parts where a reader puts them. -/
theorem wellFormed_of_mem_cellDeclarations {d : Tree} (hs : ∀ t ∈ body, t.spreads)
    (hd : d ∈ cellDeclarations body) : (∃ part, d.fits part) ∧ d.spreads ∧ d.nestedIn d.span := by
  have hl := label_ne_absent (isDeclaration_of_mem_cellDeclarations hd)
  obtain ⟨t, ht, hm, -⟩ := exists_of_mem_cellDeclarations hd
  obtain ⟨hfits, hspreads⟩ := fits_of_mem_outerNodes t (hf t ht) (hs t ht) hm
  exact ⟨hfits, hspreads, nestedIn_self hl (nestedIn_of_mem_cellDeclarations hf hn hd)⟩

theorem bounds_of_opening? {d part : Tree} {before : String} (hs : ∀ t ∈ body, t.spreads)
    (hd : d ∈ cellDeclarations body) (ho : opening? G d = some (before, part)) :
    d.span.start ≤ part.span.start ∧ part.span.start < part.span.stop ∧
      part.span.stop ≤ d.span.stop := by
  obtain ⟨⟨q, hq⟩, -, hnested⟩ := wellFormed_of_mem_cellDeclarations hf hn hs hd
  unfold opening? at ho
  split at ho
  · cases ho
    simp only [Tree.fits, Label.parts, fitsAll, Bool.and_eq_true] at hq
    exact nestedIn_span (label_ne_absent_of_fits hq.2.2.1 rfl)
      (nestedIn_of_mem_children (by simp) hnested (by simp))
  · cases ho
    simp only [Tree.fits, Label.parts, fitsAll, Bool.and_eq_true] at hq
    exact nestedIn_span (label_ne_absent_of_fits hq.2.2.1 rfl)
      (nestedIn_of_mem_children (by simp) hnested (by simp))
  · cases ho

variable (hb : sideBySide body)
include hb

theorem actLike_kept {t : Tree} (ht : t ∈ body) (hc : cellDeclarations [t] = [])
    (hlast : body.getLast? ≠ some t ∨ t.label ≠ .exprStmt) :
    ActLike t.span ((publishBody G body).edits ++ returnEdits body) [] := by
  have h := actLike_publishBody G hf hn hb ht
  rw [publish_body_eq_none G (hf t ht) hc] at h
  exact h.append_left (actLike_returnEdits hf hn hb ht hlast)

theorem actLike_returned {span : Span} {value : Tree}
    (hlast : body.getLast? = some (.node .exprStmt span [value])) :
    ActLike span ((publishBody G body).edits ++ returnEdits body)
      (enclose value.span "return (" ")") := by
  have ht := List.mem_of_getLast? hlast
  have hc : cellDeclarations [.node .exprStmt span [value]] = [] := by
    rw [List.eq_nil_iff_forall_not_mem]
    intro d hd
    obtain ⟨t, hm, hd', -⟩ := exists_of_mem_cellDeclarations hd
    rw [List.mem_singleton.mp hm] at hd'
    have hdecl := isDeclaration_of_mem_cellDeclarations hd
    rw [not_isDeclaration_of_exprStmt (hf _ ht) rfl hd'] at hdecl
    cases hdecl
  have h := actLike_publishBody G hf hn hb ht
  rw [publish_body_eq_none G (hf _ ht) hc] at h
  refine ActLike.append_right (fun _ _ _ _ => ?_) h
  rw [returnEdits, hlast]

theorem actLike_published {d part : Tree} {before : String} (hs : ∀ t ∈ body, t.spreads)
    (hd : d ∈ cellDeclarations body) (ho : opening? G d = some (before, part)) :
    ActLike d.span ((publishBody G body).edits ++ returnEdits body)
      (enclose part.span before ");") := by
  obtain ⟨p, hlike, hplace, -⟩ := actLike_cell G hf hn hb hs hd
  unfold opening? at ho
  split at ho
  · cases ho
    exact hlike
  · cases ho
    have hbody : p = .body := by simpa [isHoisted, Tree.label] using hplace
    rw [publish, if_pos hbody] at hlike
    exact hlike
  · cases ho

/-- What edits of its statements make of a cell. -/
theorem statementsRewritten {held held' : Nat → Slot} (hs : ∀ t ∈ body, t.spreads)
    (hheld : ∀ i, held' i = actAll ((publishBody G body).edits ++ returnEdits body) i (held i)) :
    StatementsRewritten G body held held' where
  between a b h := by
    refine stretch_of_actLike_nil (s := ⟨a, b⟩) hheld (actLike_nil fun e he => ?_)
    obtain ⟨t, ht, hin⟩ := exists_insertsIn_statement G hf hn he
    exact ⟨t.span, hin, h t ht⟩
  kept t ht hc hlast := stretch_of_actLike_nil hheld (actLike_kept G hf hn hb ht hc hlast)
  returned span value hlast := by
    have ht := List.mem_of_getLast? hlast
    have hfit := hf _ ht
    simp only [Tree.fits, Label.parts, fitsAll, Bool.and_eq_true] at hfit
    obtain ⟨h1, h2, h3⟩ := nestedIn_span (label_ne_absent_of_fits hfit.2.1 rfl)
      (nestedIn_of_mem_children (by simp) (nestedIn_self (by simp [Tree.label]) (hn _ ht)) (by simp))
    exact stretch_of_actLike_enclose hheld h1 h2 h3 (actLike_returned G hf hn hb hlast)
  published d hd before part ho := by
    obtain ⟨h1, h2, h3⟩ := bounds_of_opening? G hf hn hs hd ho
    exact stretch_of_actLike_enclose hheld h1 h2 h3 (actLike_published G hf hn hb hs hd ho)
  declared kind span ds last hd hhead hlast := by
    obtain ⟨p, hlike, hplace, hp⟩ := actLike_cell G hf hn hb hs hd
    obtain ⟨⟨q, hq⟩, hspreads, hnested⟩ := wellFormed_of_mem_cellDeclarations hf hn hs hd
    simp only [Tree.fits, Label.parts, Bool.and_eq_true] at hq
    simp only [Tree.spreads, Bool.and_eq_true] at hspreads
    have hk : kind = .var ∨ p = .body :=
      hplace.imp_left fun hh => by cases kind <;> first | rfl | cases hh
    have hstatement : p ≠ .eachHead := fun e => hhead (hp e)
    rw [publish, if_pos hk, if_neg hstatement] at hlike
    obtain ⟨hrewritten, hkept⟩ :=
      stretch_of_actLike_statement G kind hheld hlike hq.2 hspreads.1 hnested hlast
    exact ⟨⟨_, hrewritten⟩, hkept⟩

end

/-- An asynchronous function has the text of its cell with the statements rewritten that the second
reading finds. -/
theorem CellRun.source_statementsRewritten {o : ValidOptions} {cell : String} {r : AsyncCell}
    (run : CellRun o cell r) (h : run.WellRead) (hb : sideBySide run.body)
    (hs : ∀ t ∈ run.body, t.spreads) : ∃ held, r.source = stretch held 0 run.awaiting.draft.size ∧
      StatementsRewritten r.globalParam run.body run.awaiting.draft.held held := by
  obtain ⟨draft, ha, hr⟩ := AwaitingCell.publish_eq_ok.mp run.publish_eq
  obtain ⟨-, hsize, hheld⟩ := Draft.applyAll_eq_ok ha
  have hsource : r.source = draft.source := congrArg AsyncCell.source hr
  have hglobal : r.globalParam = run.awaiting.globalParam := congrArg AsyncCell.globalParam hr
  refine ⟨draft.held, ?_, ?_⟩
  · rw [hsource, Draft.source_eq_stretch, hsize]
  · rw [hglobal]
    exact statementsRewritten _ h.fits h.nested hb hs hheld

/-- A line break ends the declaration, and a regular expression begins the next statement. -/
def regexCell : String := "let x\n/re/\nif(1);"

theorem source_regexCell_statementsRewritten :
    ∃ (r : AsyncCell) (run : CellRun sampleOptions regexCell r), run.WellRead ∧
      sideBySide run.body ∧ (∀ t ∈ run.body, t.spreads) ∧
      ∃ held, r.source = stretch held 0 run.awaiting.draft.size ∧
        StatementsRewritten r.globalParam run.body run.awaiting.draft.held held := by
  obtain ⟨r, run, hq⟩ := @exists_cellRun sampleOptions regexCell
    (fun m c body _ => readsWell regexCell m c body && sideBySide body && body.all Tree.spreads)
    (by decide +kernel)
  simp only [Bool.and_eq_true, List.all_eq_true] at hq
  obtain ⟨⟨hread, hb⟩, hs⟩ := hq
  have h := run.wellRead_of_readsWell hread
  exact ⟨r, run, h, hb, hs, run.source_statementsRewritten h hb hs⟩

/-- Behind the parenthesis that closes the rewritten declaration the slash divides. -/
theorem not_ofText_code_regexCell : ∃ r, AsyncCell.ofText sampleOptions regexCell = .ok r ∧
    ∀ p, Program.ofText r.code ≠ .ok p := by
  obtain ⟨r, run, h⟩ := @exists_cellRun sampleOptions regexCell
    (fun _ _ _ r => !(Program.ofText r.code).toBool) (by decide +kernel)
  refine ⟨r, AsyncCell.ofText_eq_ok_iff.mpr ⟨run⟩, fun p hp => ?_⟩
  rw [hp] at h
  cases h

end NotebookCell
