import NotebookCell.Proofs.Locality

/-!
# Text that stays whole

Inside of an expression, a function, a class or an accessor nothing is edited. What edits bring to
its span stands before its first character or behind its last one.
-/

namespace NotebookCell

open Script TaggedText

/-! ## Edits at the ends of a span -/

/-- The edit acts on the slot. -/
def Edit.touches (i : Nat) : Edit → Prop
  | .replace range _ => i = range.start ∨ (range.start < i ∧ i < range.stop)
  | .prepend range _ => i = range.start
  | .append range _ => i + 1 = range.stop

theorem Edit.act_of_not_touches {e : Edit} {i : Nat} (h : ¬e.touches i) (s : Slot) : e.act i s = s := by
  cases e with
  | replace range text =>
    simp only [touches, not_or] at h
    rw [act, if_neg h.1, if_neg h.2]
  | prepend range text =>
    simp only [touches] at h
    rw [act, if_neg h]
  | append range text =>
    simp only [touches] at h
    rw [act, if_neg h]

theorem Edit.InsertsIn.bounds_of_touches {within : Span} {e : Edit} (h : e.InsertsIn within) {i : Nat}
    (hi : e.touches i) : within.start ≤ i ∧ i < within.stop := by
  have h1 := h.start_le
  have h2 := h.start_lt_stop
  have h3 := h.stop_le
  cases e <;> simp only [Edit.range, touches] at h1 h2 h3 hi <;> omega

/-- Of the slots of the span the edit touches at most an end, where it inserts outwards. -/
def Edit.Spares (s : Span) (e : Edit) : Prop := ∀ i, s.start ≤ i → i < s.stop → e.touches i →
  (∃ range text, e = .prepend range text ∧ i = s.start) ∨
    ∃ range text, e = .append range text ∧ i + 1 = s.stop

section
variable {s within range : Span} {e : Edit}

theorem spares_of_apart (h : e.InsertsIn within) (ha : within.stop ≤ s.start ∨ s.stop ≤ within.start) :
    e.Spares s := by
  intro i h1 h2 hi
  have := h.bounds_of_touches hi
  omega

theorem spares_prepend (h : range.start ≤ s.start) (text : TaggedText) :
    (Edit.prepend range text).Spares s := by
  intro i h1 h2 hi
  simp only [Edit.touches] at hi
  exact .inl ⟨range, text, rfl, by omega⟩

theorem spares_append (h : s.stop ≤ range.stop) (text : TaggedText) :
    (Edit.append range text).Spares s := by
  intro i h1 h2 hi
  simp only [Edit.touches] at hi
  exact .inr ⟨range, text, rfl, by omega⟩

theorem spares_enclose (h1 : range.start ≤ s.start) (h2 : s.stop ≤ range.stop) (before after : String) :
    ∀ e ∈ enclose range before after, e.Spares s := by
  intro e he
  rcases List.mem_pair.mp he with rfl | rfl
  · exact spares_prepend h1 _
  · exact spares_append h2 _

end

/-- What edits at its ends make of a span: the text of its slots, with what was inserted around it. -/
theorem stretch_of_spares {s : Span} (hs : s.start < s.stop) {es : List Edit}
    (h : ∀ e ∈ es, e.Spares s ∧ typedPart e.text = []) (f : Nat → Slot) :
    ∃ before after, typedPart before = [] ∧ typedPart after = [] ∧
      stretch (fun i => actAll es i (f i)) s.start s.stop =
        before ++ stretch f s.start s.stop ++ after := by
  induction es generalizing f with
  | nil => exact ⟨[], [], rfl, rfl, by simp⟩
  | cons e es ih =>
    obtain ⟨before, after, hb, ha, heq⟩ := ih (fun e' he' => h e' (by simp [he'])) fun i => e.act i (f i)
    obtain ⟨hspares, htext⟩ := h e (by simp)
    simp only [actAll_cons]
    rw [heq]
    by_cases htouch : ∃ i, s.start ≤ i ∧ i < s.stop ∧ e.touches i
    · obtain ⟨i, h1, h2, hi⟩ := htouch
      rcases hspares i h1 h2 hi with ⟨range, text, rfl, hstart⟩ | ⟨range, text, rfl, hstop⟩
      · have hrange : range.start = s.start := by
          simp only [Edit.touches] at hi
          omega
        have hact := stretch_act_prepend (f := f) (hrange ▸ hs) text
        rw [hrange] at hact
        refine ⟨before ++ text, after, by simpa [hb, Edit.text] using htext, ha, ?_⟩
        rw [hact]
        simp only [List.append_assoc]
      · have hrange : range.stop = s.stop := by
          simp only [Edit.touches] at hi
          omega
        have hact := stretch_act_append (f := f) (hrange ▸ hs) text
        rw [hrange] at hact
        refine ⟨before, text ++ after, hb, by simpa [ha, Edit.text] using htext, ?_⟩
        rw [hact]
        simp only [List.append_assoc]
    · refine ⟨before, after, hb, ha, ?_⟩
      rw [stretch_congr fun i h1 h2 => Edit.act_of_not_touches (fun hi => htouch ⟨i, h1, h2, hi⟩) _]

/-! ## Closed nodes -/

/-- An expression, a function, an arrow function, a class or an accessor. -/
def Script.Label.isClosed (label : Label) : Bool :=
  label.kind?.any fun kind => kind == .expression || kind.opensScope

theorem Script.Label.isInner_of_isClosed {label : Label} (h : label.isClosed) : label.isInner := by
  cases label <;> first | rfl | cases h

mutual

/-- Outside of closed nodes the nodes side by side have no position in common. -/
def Script.Tree.partsApart : Tree → Bool
  | .node label _ children =>
    label.isClosed || (label.namesPart || sideBySide children) && partsApartAll children

def Script.partsApartAll : List Tree → Bool
  | [] => true
  | t :: ts => t.partsApart && partsApartAll ts

end

section
variable {label : Label} {span : Span} {children : List Tree}

theorem partsApart_node (hl : label.isClosed = false) (hn : label.namesPart = false)
    (h : (Script.Tree.node label span children).partsApart) :
    sideBySide children ∧ partsApartAll children := by
  simpa [Tree.partsApart, hl, hn] using h

theorem partsApart_of_mem {ts : List Tree} (h : partsApartAll ts) {t : Tree} (ht : t ∈ ts) :
    t.partsApart := by
  induction ts with
  | nil => cases ht
  | cons u ts ih =>
    simp only [partsApartAll, Bool.and_eq_true] at h
    rcases List.mem_cons.mp ht with rfl | ht
    · exact h.1
    · exact ih h.2 ht

end

mutual

theorem partsApart_of_spreads : ∀ t : Tree, t.spreads → t.partsApart
  | .node label span children, h => by
    have hbeside := fun hn => sideBySide_of_spreads hn h
    simp only [Tree.spreads, Bool.and_eq_true] at h
    have hall := partsApartAll_of_spreads children fun t ht => spreads_of_mem h.2 ht
    rw [Tree.partsApart, hall, Bool.and_true]
    cases hn : label.namesPart with
    | true => simp
    | false => simp [hbeside hn]

theorem partsApartAll_of_spreads : ∀ ts : List Tree, (∀ t ∈ ts, t.spreads) → partsApartAll ts
  | [], _ => rfl
  | t :: ts, h => by
    rw [partsApartAll, partsApart_of_spreads t (h t (by simp)),
      partsApartAll_of_spreads ts fun u hu => h u (by simp [hu])]
    rfl

end

theorem mem_nodesOf {n : Tree} {ts : List Tree} : n ∈ Tree.nodesOf ts ↔ ∃ t ∈ ts, n ∈ t.nodes := by
  induction ts with
  | nil => simp [Tree.nodesOf]
  | cons t ts ih => simp [Tree.nodesOf, ih]

mutual

theorem nestedIn_of_mem_nodes {n : Tree} (hl : n.label ≠ .absent) : ∀ (t : Tree) {part : Part}
    {within : Span}, t.fits part → t.nestedIn within → n ∈ t.nodes →
      t.label ≠ .absent ∧ n.nestedIn within
  | .node label span children, part, within, hf, h, hm => by
    simp only [Tree.fits, Bool.and_eq_true] at hf
    rw [Tree.nodes] at hm
    rcases List.mem_cons.mp hm with rfl | hbelow
    · exact ⟨hl, h⟩
    · by_cases ha : label = .absent
      · subst ha
        rw [fitsAll_nil hf.2] at hbelow
        cases hbelow
      · exact ⟨ha, nestedIn_of_mem_nodesOf hl children hf.2
          (fun t ht => nestedIn_of_mem_children ha h ht) hbelow⟩

theorem nestedIn_of_mem_nodesOf {n : Tree} (hl : n.label ≠ .absent) : ∀ (ts : List Tree)
    {parts : List Part} {within : Span}, fitsAll parts ts → (∀ t ∈ ts, t.nestedIn within) →
      n ∈ Tree.nodesOf ts → n.nestedIn within
  | [], _, _, _, _, hm => by cases hm
  | t :: ts, parts, within, hf, h, hm => by
    obtain ⟨part, rest, rfl, ht, hts⟩ := fitsAll_cons hf
    rw [Tree.nodesOf] at hm
    rcases List.mem_append.mp hm with hm | hm
    · exact (nestedIn_of_mem_nodes hl t ht (h t (by simp)) hm).2
    · exact nestedIn_of_mem_nodesOf hl ts hts (fun u hu => h u (by simp [hu])) hm

end

theorem span_of_mem_nodes {n t : Tree} (hl : n.label ≠ .absent) {part : Part} {within : Span}
    (hf : t.fits part) (hn : t.nestedIn within) (hm : n ∈ t.nodes) :
    t.label ≠ .absent ∧ t.span.start ≤ n.span.start ∧ n.span.stop ≤ t.span.stop := by
  obtain ⟨ht, -⟩ := nestedIn_of_mem_nodes hl t hf hn hm
  obtain ⟨-, hnt⟩ := nestedIn_of_mem_nodes hl t hf (nestedIn_self ht hn) hm
  obtain ⟨h1, -, h3⟩ := nestedIn_span hl hnt
  exact ⟨ht, h1, h3⟩

/-! ## Edits of the nodes around -/

theorem label_ne_absent_of_isClosed {n : Tree} (hc : n.label.isClosed) : n.label ≠ .absent := by
  intro h
  rw [h] at hc
  cases hc

def Published.Spares (s : Span) (p : Published) : Prop := ∀ e ∈ p.edits, e.Spares s

namespace Published.Spares

variable {s : Span} {p q : Published}

theorem none : Published.none.Spares s := fun _ he => nomatch he

theorem append (hp : p.Spares s) (hq : q.Spares s) : (p ++ q).Spares s :=
  fun e he => (List.mem_append.mp he).elim (hp e) (hq e)

end Published.Spares

/-- What is inserted in a node spares all that is in the nodes beside it. -/
theorem spares_beside {n u : Tree} {ts : List Tree} {within : Span} {p : Published}
    (hc : n.label.isClosed) (hm : n ∈ Tree.nodesOf ts) (hu : u ∈ ts) (hb : sideBySide ts)
    (hf : ∀ t ∈ ts, ∃ part, t.fits part) (hn : ∀ t ∈ ts, t.nestedIn within)
    (hin : ∀ e ∈ p.edits, u.label ≠ .absent ∧ e.InsertsIn u.span)
    (hown : n ∈ u.nodes → p.Spares n.span) : p.Spares n.span := by
  intro e he
  obtain ⟨t, ht, hmt⟩ := mem_nodesOf.mp hm
  by_cases heq : u = t
  · exact hown (heq ▸ hmt) e he
  · obtain ⟨hul, hins⟩ := hin e he
    obtain ⟨part, hft⟩ := hf t ht
    obtain ⟨htl, h1, h2⟩ := span_of_mem_nodes (label_ne_absent_of_isClosed hc) hft (hn t ht) hmt
    have ha := apartFrom_of_mem hb hu ht heq
    rw [apartFrom_iff hul htl, apartFrom_iff htl hul] at ha
    exact spares_of_apart hins (by omega)

theorem Published.mem_edits_interleave {p p' q q' : Published} {e : Edit} :
    e ∈ ((p ++ q) ++ (p' ++ q')).edits ↔ e ∈ (p ++ p').edits ∨ e ∈ (q ++ q').edits := by
  simp only [Published.edits_append, List.mem_append]
  tauto

/-! ## Patterns -/

section
variable (G : String) (kind : VarKind)

/-- What a target publishes, with what the pattern in it does. -/
def publishElement (t : Tree) : Published := publishTarget G kind t ++ publishPattern G kind t

def publishMember (t : Tree) : Published := publishProperty G kind t ++ publishPatternsOf G kind [t]

theorem publishElement_withDefault (span : Span) (target : Tree) (rest : List Tree) :
    publishElement G kind (.node .withDefault span (target :: rest)) = publishElement G kind target := by
  simp [publishElement, publishTarget, publishPattern]

theorem publishElement_rest (span : Span) (target : Tree) (rest : List Tree) :
    publishElement G kind (.node .rest span (target :: rest)) = publishElement G kind target := by
  simp [publishElement, publishTarget, publishPattern]

theorem publishMember_keyValue (span : Span) (key value : Tree) :
    publishMember G kind (.node .keyValue span [key, value]) = publishElement G kind value := by
  simp [publishMember, publishElement, publishProperty, publishPatternsOf]

theorem publishMember_rest (span : Span) (target : Tree) (rest : List Tree) :
    publishMember G kind (.node .rest span (target :: rest)) = publishElement G kind target := by
  simp [publishMember, publishElement, publishProperty, publishPatternsOf]

theorem mem_edits_elements {ts : List Tree} {e : Edit} :
    e ∈ (Published.all (publishTarget G kind) ts ++ publishPatterns G kind ts).edits ↔
      ∃ t ∈ ts, e ∈ (publishElement G kind t).edits := by
  induction ts with
  | nil => simp [publishPatterns, Published.none]
  | cons t ts ih =>
    rw [Published.all_cons, publishPatterns, Published.mem_edits_interleave, ih]
    simp [publishElement]

theorem mem_edits_members {ts : List Tree} {e : Edit} :
    e ∈ (Published.all (publishProperty G kind) ts ++ publishPatternsOf G kind ts).edits ↔
      ∃ t ∈ ts, e ∈ (publishMember G kind t).edits := by
  induction ts with
  | nil => simp [publishPatternsOf, Published.none]
  | cons t ts ih =>
    rw [Published.all_cons, publishPatternsOf_cons, Published.mem_edits_interleave, ih]
    simp [publishMember]

theorem insertsIn_element {t : Tree} {within : Span} (h : t.nestedIn within) :
    ∀ e ∈ (publishElement G kind t).edits, t.label ≠ .absent ∧ e.InsertsIn t.span := by
  intro e he
  have hl : t.label ≠ .absent := by
    obtain ⟨label, span, children⟩ := t
    rintro ⟨⟩
    cases he
  have hself := nestedIn_self hl h
  exact ⟨hl, Published.InsertsIn.append (insertsIn_target G kind t hself)
    (insertsIn_pattern G kind t hself) e he⟩

theorem insertsIn_member {t : Tree} {within : Span} (h : t.nestedIn within) :
    ∀ e ∈ (publishMember G kind t).edits, t.label ≠ .absent ∧ e.InsertsIn t.span := by
  intro e he
  have hl : t.label ≠ .absent := by
    obtain ⟨label, span, children⟩ := t
    rintro ⟨⟩
    cases he
  have hself := nestedIn_self hl h
  exact ⟨hl, Published.InsertsIn.append (insertsIn_property G kind t hself)
    (insertsIn_patternOf G kind t hself) e he⟩

end

theorem not_mem_nodes_of_fits_name {n t : Tree} (hc : n.label.isClosed) (hf : t.fits .name) :
    n ∉ t.nodes := by
  obtain ⟨name, span, rfl⟩ := eq_name_of_fits hf
  intro hm
  rw [Tree.nodes, Tree.nodesOf, List.mem_singleton] at hm
  subst hm
  cases hc

theorem mem_nodesOf_children {n : Tree} {label : Label} {span : Span} {children : List Tree}
    (hc : n.label.isClosed) (hl : label.isClosed = false)
    (hm : n ∈ (Script.Tree.node label span children).nodes) : n ∈ Tree.nodesOf children := by
  rw [Tree.nodes] at hm
  refine (List.mem_cons.mp hm).resolve_left ?_
  rintro rfl
  rw [Tree.label, hl] at hc
  cases hc

section
variable (G : String) (kind : VarKind)

mutual

theorem spares_element {n : Tree} (hc : n.label.isClosed) : ∀ (t : Tree) {within : Span},
    t.fits .target → t.nestedIn within → t.partsApart → n ∈ t.nodes →
      (publishElement G kind t).Spares n.span
  | .node label span children, within, hf, hn, ha, hm => by
    simp only [Tree.fits, Bool.and_eq_true] at hf
    have hfits := fun u hu => exists_fits_of_mem (t := u) hf.2 hu
    cases label with
    | arrayPattern =>
      obtain ⟨hb, hparts⟩ := partsApart_node rfl rfl ha
      have hchild := fun u hu => nestedIn_of_mem_children (t := u) (by simp) hn hu
      have hbelow := mem_nodesOf_children hc rfl hm
      intro e he
      obtain ⟨u, hu, he⟩ := (mem_edits_elements G kind).mp he
      have hfu := fits_target_of_optional (fits_of_mem hf.2 hu)
      exact spares_beside hc hbelow hu hb hfits hchild (insertsIn_element G kind (hchild u hu))
        (spares_elements hc children hchild hparts u hu hfu) e he
    | objectPattern =>
      obtain ⟨hb, hparts⟩ := partsApart_node rfl rfl ha
      have hchild := fun u hu => nestedIn_of_mem_children (t := u) (by simp) hn hu
      have hbelow := mem_nodesOf_children hc rfl hm
      intro e he
      obtain ⟨u, hu, he⟩ := (mem_edits_members G kind).mp he
      exact spares_beside hc hbelow hu hb hfits hchild (insertsIn_member G kind (hchild u hu))
        (spares_members hc children hchild hparts u hu (fits_of_mem hf.2 hu)) e he
    | withDefault =>
      obtain ⟨hb, hparts⟩ := partsApart_node rfl rfl ha
      have hchild := fun u hu => nestedIn_of_mem_children (t := u) (by simp) hn hu
      have hown := spares_elements hc children hchild hparts
      obtain ⟨target, value, rfl, ht, -⟩ := fitsAll_pair hf.2
      rw [publishElement_withDefault]
      exact spares_beside hc (mem_nodesOf_children hc rfl hm) (by simp) hb hfits hchild
        (insertsIn_element G kind (hchild target (by simp))) (hown target (by simp) ht)
    | rest =>
      obtain ⟨-, hparts⟩ := partsApart_node rfl rfl ha
      have hchild := fun u hu => nestedIn_of_mem_children (t := u) (by simp) hn hu
      have hown := spares_elements hc children hchild hparts
      obtain ⟨u, hu, hmu⟩ := mem_nodesOf.mp (mem_nodesOf_children hc rfl hm)
      obtain ⟨target, rfl, ht⟩ := fitsAll_singleton hf.2
      rw [List.mem_singleton] at hu
      rw [publishElement_rest]
      exact hown target (by simp) ht (hu ▸ hmu)
    | name name =>
      rw [fitsAll_nil hf.2] at hm
      exact absurd hm (not_mem_nodes_of_fits_name hc rfl)
    | _ => exact .none

theorem spares_elements {n : Tree} (hc : n.label.isClosed) : ∀ (ts : List Tree) {within : Span},
    (∀ t ∈ ts, t.nestedIn within) → partsApartAll ts →
      ∀ u ∈ ts, u.fits .target → n ∈ u.nodes → (publishElement G kind u).Spares n.span
  | [], _, _, _, u, hu, _, _ => by cases hu
  | t :: ts, within, hn, ha, u, hu, hf, hm => by
    simp only [partsApartAll, Bool.and_eq_true] at ha
    rcases List.mem_cons.mp hu with heq | hu
    · rw [heq] at hf hm ⊢
      exact spares_element hc t hf (hn t (by simp)) ha.1 hm
    · exact spares_elements hc ts (fun v hv => hn v (by simp [hv])) ha.2 u hu hf hm

theorem spares_members {n : Tree} (hc : n.label.isClosed) : ∀ (ts : List Tree) {within : Span},
    (∀ t ∈ ts, t.nestedIn within) → partsApartAll ts →
      ∀ u ∈ ts, u.fits .patternProperty → n ∈ u.nodes → (publishMember G kind u).Spares n.span
  | [], _, _, _, u, hu, _, _ => by cases hu
  | t :: ts, within, hn, ha, u, hu, hf, hm => by
    simp only [partsApartAll, Bool.and_eq_true] at ha
    rcases List.mem_cons.mp hu with heq | hu
    · rw [heq] at hf hm ⊢
      exact spares_member hc t hf (hn t (by simp)) ha.1 hm
    · exact spares_members hc ts (fun v hv => hn v (by simp [hv])) ha.2 u hu hf hm

theorem spares_member {n : Tree} (hc : n.label.isClosed) : ∀ (t : Tree) {within : Span},
    t.fits .patternProperty → t.nestedIn within → t.partsApart → n ∈ t.nodes →
      (publishMember G kind t).Spares n.span
  | .node label span children, within, hf, hn, ha, hm => by
    simp only [Tree.fits, Bool.and_eq_true] at hf
    have hfits := fun u hu => exists_fits_of_mem (t := u) hf.2 hu
    cases label with
    | keyValue =>
      obtain ⟨hb, hparts⟩ := partsApart_node rfl rfl ha
      have hchild := fun u hu => nestedIn_of_mem_children (t := u) (by simp) hn hu
      have hown := spares_elements hc children hchild hparts
      obtain ⟨key, value, rfl, -, hv⟩ := fitsAll_pair hf.2
      have hvalue : value ∈ [key, value] := by simp
      rw [publishMember_keyValue]
      exact spares_beside hc (mem_nodesOf_children hc rfl hm) hvalue hb hfits hchild
        (insertsIn_element G kind (hchild value hvalue)) (hown value hvalue hv)
    | initialized =>
      obtain ⟨hb, -⟩ := partsApart_node rfl rfl ha
      obtain ⟨target, rest, rfl, ht, -⟩ := fitsAll_of_cons hf.2
      have hchild := fun u hu => nestedIn_of_mem_children (t := u) (by simp) hn hu
      have hnot := not_mem_nodes_of_fits_name hc ht
      have htl := label_ne_absent_of_fits ht rfl
      obtain ⟨-, hlt, -⟩ := nestedIn_span htl (hchild target (by simp))
      obtain ⟨name, nameSpan, rfl⟩ := eq_name_of_fits ht
      refine spares_beside hc (mem_nodesOf_children hc rfl hm) (List.mem_cons_self ..) hb hfits hchild
        (fun e he => ⟨htl, ?_⟩) fun hmt => absurd hmt hnot
      rcases List.mem_singleton.mp he with rfl
      exact ⟨Nat.le_refl _, hlt, Nat.le_refl _, typedPart_inserted _⟩
    | rest =>
      obtain ⟨-, hparts⟩ := partsApart_node rfl rfl ha
      have hchild := fun u hu => nestedIn_of_mem_children (t := u) (by simp) hn hu
      have hown := spares_elements hc children hchild hparts
      obtain ⟨u, hu, hmu⟩ := mem_nodesOf.mp (mem_nodesOf_children hc rfl hm)
      obtain ⟨target, rfl, ht⟩ := fitsAll_singleton hf.2
      rw [List.mem_singleton] at hu
      rw [publishMember_rest]
      exact hown target (by simp) ht (hu ▸ hmu)
    | _ => exact .none

end

end

/-! ## Declarations -/

section
variable (G : String) {n : Tree} (hc : n.label.isClosed) {within : Span}
include hc

theorem spares_declarator (kind : VarKind) (form : DeclarationForm) {d : Tree} (hf : d.fits .declarator)
    (hn : d.nestedIn within) (ha : d.partsApart) (hm : n ∈ d.nodes) :
    (publishDeclarator G kind form d).Spares n.span := by
  obtain ⟨-, hstart, hstop⟩ := span_of_mem_nodes (label_ne_absent_of_isClosed hc) hf hn hm
  obtain ⟨label, span, children⟩ := d
  simp only [Tree.fits, Part.allows, Bool.and_eq_true, beq_iff_eq] at hf
  obtain ⟨rfl, hf⟩ := hf
  obtain ⟨hb, hparts⟩ := partsApart_node rfl rfl ha
  have hfits := fun u hu => exists_fits_of_mem (t := u) hf hu
  have hchild := fun u hu => nestedIn_of_mem_children (t := u) (by simp) hn hu
  have hbelow := mem_nodesOf_children hc rfl hm
  obtain ⟨target, init, rfl, ht, hi⟩ := fitsAll_pair hf
  have htarget : (publishElement G kind target).Spares n.span :=
    spares_beside hc hbelow (by simp) hb hfits hchild (insertsIn_element G kind (hchild target (by simp)))
      (spares_element G kind hc target ht (hchild target (by simp)) (partsApart_of_mem hparts (by simp)))
  rw [publishDeclarator]
  refine Published.Spares.append htarget ?_
  show ∀ e ∈ if form = .statement then declaratorEdits span init else [], e.Spares n.span
  split
  · fun_cases declaratorEdits span init with
    | case1 => exact spares_enclose hstart hstop _ _
    | case2 init hl =>
      have hil : init.label ≠ .absent := by
        obtain ⟨label, initSpan, children⟩ := init
        rintro rfl
        exact hl initSpan children rfl
      have hmem : init ∈ [target, init] := by simp
      have hinit : (Published.ofEdits (enclose init.span "(" ")")).Spares n.span := by
        refine spares_beside hc hbelow hmem hb hfits hchild (fun e he => ⟨hil, ?_⟩) fun hmi => ?_
        · obtain ⟨-, hlt, -⟩ := nestedIn_span hil (hchild init hmem)
          exact insertsIn_enclose (Nat.le_refl _) hlt (Nat.le_refl _) _ _ e he
        · obtain ⟨-, h1, h2⟩ := span_of_mem_nodes (label_ne_absent_of_isClosed hc) hi (hchild init hmem) hmi
          exact spares_enclose h1 h2 _ _
      refine List.forall_mem_cons.mpr ⟨spares_prepend hstart _, List.forall_mem_append.mpr ⟨hinit, ?_⟩⟩
      exact List.forall_mem_singleton.mpr (spares_append hstop _)
  · simp

theorem spares_varDecl (kind : VarKind) (form : DeclarationForm) {span : Span} {ds : List Tree}
    (hf : fitsAll (List.replicate ds.length .declarator) ds)
    (hn : (Script.Tree.node (.varDecl kind) span ds).nestedIn within)
    (ha : (Script.Tree.node (.varDecl kind) span ds).partsApart) (hm : n ∈ Tree.nodesOf ds) :
    (publishDeclaration G kind form span ds).Spares n.span := by
  obtain ⟨hb, hparts⟩ := partsApart_node rfl rfl ha
  have hfits := fun u hu => exists_fits_of_mem (t := u) hf hu
  obtain ⟨-, hword, -, hlead⟩ := nestedIn_node (by simp) hn
  have hchild : ∀ d ∈ ds, d.nestedIn ⟨span.start + kind.word.utf8ByteSize, span.stop⟩ :=
    fun d hd => nestedIn_of_mem hlead hd
  have hdl : ∀ d ∈ ds, d.label ≠ .absent := fun d hd => label_ne_absent_of_fits (fits_of_mem hf hd) rfl
  -- a declarator's own edits
  have hds : (Published.all (publishDeclarator G kind form) ds).Spares n.span := by
    intro e he
    obtain ⟨d, hd, he⟩ := mem_edits_all he
    refine spares_beside hc hm hd hb hfits hchild
      (fun e he => ⟨hdl d hd, insertsIn_declarator G kind form (nestedIn_self (hdl d hd) (hchild d hd)) e he⟩)
      (spares_declarator G hc kind form (fits_of_mem hf hd) (hchild d hd) (partsApart_of_mem hparts hd)) e he
  have hkeyword : (Edit.replace ⟨span.start, span.start + kind.word.utf8ByteSize⟩
      (inserted (if form = .statement then "void (" else ""))).Spares n.span := by
    obtain ⟨h1, -, -⟩ := nestedIn_span (label_ne_absent_of_isClosed hc)
      (nestedIn_of_mem_nodesOf (label_ne_absent_of_isClosed hc) ds hf hchild hm)
    have hin := fun text => @insertsIn_keyword kind ⟨span.start, span.start + kind.word.utf8ByteSize⟩ span
      (Nat.le_refl _) (Nat.le_refl _) text
    exact spares_of_apart (hin _) (.inl h1)
  have hclose : ∀ e ∈ closeDeclaration ds, e.Spares n.span := by
    fun_cases closeDeclaration ds with
    | case1 d hd =>
      have hd := List.mem_of_getLast? hd
      obtain ⟨-, hlt, -⟩ := nestedIn_span (hdl d hd) (hchild d hd)
      refine spares_beside (p := .ofEdits [.append d.span (inserted ")")]) hc hm hd hb hfits hchild ?_ ?_
      · exact List.forall_mem_singleton.mpr
          ⟨hdl d hd, Nat.le_refl _, hlt, Nat.le_refl _, typedPart_inserted _⟩
      · intro hmd
        obtain ⟨-, -, h2⟩ :=
          span_of_mem_nodes (label_ne_absent_of_isClosed hc) (fits_of_mem hf hd) (hchild d hd) hmd
        exact List.forall_mem_singleton.mpr (spares_append h2 _)
    | case2 => simp
  refine .append (.append (List.forall_mem_singleton.mpr hkeyword) hds) ?_
  show ∀ e ∈ if form = .statement then closeDeclaration ds else [], e.Spares n.span
  split
  · exact hclose
  · simp

theorem spares_declaration {label : Label} {span : Span} {children : List Tree} (hd : label.isDeclaration)
    (hf : fitsAll (label.parts children.length) children)
    (hn : (Script.Tree.node label span children).nestedIn within)
    (ha : (Script.Tree.node label span children).partsApart)
    (hm : n ∈ (Script.Tree.node label span children).nodes) (place : Place) :
    (publish G place (.node label span children)).Spares n.span := by
  have hal : label ≠ .absent := by rintro rfl; cases hd
  have hcl : label.isClosed = false := by cases label <;> first | rfl | cases hd
  have hbelow := mem_nodesOf_children hc hcl hm
  have hchild := fun u hu => nestedIn_of_mem_children (t := u) hal hn hu
  -- the name of a function or class holds no other node
  have hpart : ∀ name part : Tree, children = [name, part] → name.fits .name → ∀ {p : Part}, part.fits p →
      part.span.start ≤ n.span.start ∧ n.span.stop ≤ part.span.stop := by
    rintro name part rfl hname p hpart
    rw [Tree.nodesOf, Tree.nodesOf, Tree.nodesOf, List.append_nil, List.mem_append] at hbelow
    have hmp := hbelow.resolve_left (not_mem_nodes_of_fits_name hc hname)
    exact (span_of_mem_nodes (label_ne_absent_of_isClosed hc) hpart (hchild part (by simp)) hmp).2
  cases label with
  | funDecl =>
    obtain ⟨target, fn, rfl, hname, hfn⟩ := fitsAll_pair hf
    obtain ⟨h1, h2⟩ := hpart target fn rfl hname hfn
    obtain ⟨name, nameSpan, rfl⟩ := eq_name_of_fits hname
    exact spares_enclose h1 h2 _ _
  | classDecl =>
    obtain ⟨target, cls, rfl, hname, hcls⟩ := fitsAll_pair hf
    obtain ⟨h1, h2⟩ := hpart target cls rfl hname hcls
    obtain ⟨name, nameSpan, rfl⟩ := eq_name_of_fits hname
    rw [publish]
    split
    · exact spares_enclose h1 h2 _ _
    · exact .none
  | varDecl kind =>
    rw [publish]
    split
    · exact spares_varDecl G hc kind _ hf hn ha hbelow
    · exact .none
  | _ => cases hd

/-! ## Statements -/

end

section
variable (G : String)

mutual

theorem spares_publish {n : Tree} (hc : n.label.isClosed) : ∀ (t : Tree) {part : Part} {within : Span}
    (place : Place), t.fits part → t.nestedIn within → t.partsApart → n ∈ t.nodes →
      (publish G place t).Spares n.span
  | .node label span children, part, within, place, hf, hn, ha, hm => by
    simp only [Tree.fits, Bool.and_eq_true] at hf
    cases hd : label.isDeclaration with
    | true => exact spares_declaration G hc hd hf.2 hn ha hm place
    | false =>
      have hnil : (label.opensScope = false → ∀ part ∈ label.parts children.length, part.isInner) →
          (publish G place (.node label span children)).edits = [] :=
        fun hp => edits_publish_eq_nil G hd hp hf.2 place
      by_cases hi : label.isInner
      · rw [Published.Spares, hnil fun hs => Label.isInner_parts hi hs _]
        simp
      by_cases hnames : label.namesPart
      · rw [Published.Spares, hnil fun _ => Label.isInner_parts_of_namesPart hnames _]
        simp
      -- what is left is a statement, whose children stand side by side
      have hcl : label.isClosed = false := by
        by_contra hcl
        exact hi (Label.isInner_of_isClosed (by simpa using hcl))
      have hal : label ≠ .absent := by
        rintro rfl
        exact hi rfl
      obtain ⟨hb, hparts⟩ := partsApart_node hcl (by simpa using hnames) ha
      have hchild := fun u hu => nestedIn_of_mem_children (t := u) hal hn hu
      have hfits := fun u hu => exists_fits_of_mem (t := u) hf.2 hu
      have hown := spares_children hc children hf.2 hchild hparts
      rw [publish_of_not_isDeclaration G hd]
      split
      · exact .none
      · intro e he
        obtain ⟨u, hu, p, he⟩ := mem_edits_publishFrom G he
        obtain ⟨part, hfu⟩ := hfits u hu
        exact spares_beside hc (mem_nodesOf_children hc hcl hm) hu hb hfits hchild
          (insertsIn_span G p hfu (hchild u hu)) (hown u hu p) e he

theorem spares_children {n : Tree} (hc : n.label.isClosed) : ∀ (ts : List Tree) {parts : List Part}
    {within : Span}, fitsAll parts ts → (∀ t ∈ ts, t.nestedIn within) → partsApartAll ts →
      ∀ u ∈ ts, ∀ place, n ∈ u.nodes → (publish G place u).Spares n.span
  | [], _, _, _, _, _, u, hu, _, _ => by cases hu
  | t :: ts, parts, within, hf, hn, ha, u, hu, place, hm => by
    obtain ⟨part, rest, rfl, hft, hfts⟩ := fitsAll_cons hf
    simp only [partsApartAll, Bool.and_eq_true] at ha
    rcases List.mem_cons.mp hu with heq | hu
    · rw [heq] at hm ⊢
      exact spares_publish hc t place hft (hn t (by simp)) ha.1 hm
    · exact spares_children hc ts hfts (fun v hv => hn v (by simp [hv])) ha.2 u hu place hm

end

end

/-! ## Cells -/

theorem exists_of_mem_returnEdits {body : List Tree} {e : Edit} (he : e ∈ returnEdits body) :
    ∃ span value, body.getLast? = some (.node .exprStmt span [value]) ∧
      e ∈ enclose value.span "return (" ")" := by
  revert e
  fun_cases returnEdits body with
  | case1 span value hlast =>
    intro e he
    exact ⟨span, value, hlast, he⟩
  | case2 =>
    intro e he
    cases he

section
variable (G : String) {body : List Tree} {within : Span} (hf : ∀ t ∈ body, t.fits .statement)
  (hn : ∀ t ∈ body, t.nestedIn within) (hb : sideBySide body) (ha : partsApartAll body)
  {n : Tree} (hm : n ∈ Tree.nodesOf body) (hc : n.label.isClosed)
include hf hn hb hm hc

theorem spares_returnEdits : ∀ e ∈ returnEdits body, e.Spares n.span := by
  intro e he
  obtain ⟨last, hlast, hl, hin⟩ := insertsIn_returnEdits hf hn he
  have hmem := List.mem_of_getLast? hlast
  refine spares_beside (p := .ofEdits [e]) hc hm hmem hb (fun t ht => ⟨_, hf t ht⟩) hn ?_ ?_ e
    (List.mem_singleton_self e)
  · exact List.forall_mem_singleton.mpr ⟨by simp [hl], hin⟩
  · intro hml
    obtain ⟨span, value, hvalue, he⟩ := exists_of_mem_returnEdits he
    cases hlast.symm.trans hvalue
    have hfv := hf _ hmem
    simp only [Tree.fits, Bool.and_eq_true] at hfv
    have hbelow := mem_nodesOf_children hc rfl hml
    rw [Tree.nodesOf, Tree.nodesOf, List.append_nil] at hbelow
    obtain ⟨part, hpart⟩ := exists_fits_of_mem hfv.2 (List.mem_singleton_self value)
    obtain ⟨-, h1, h2⟩ := span_of_mem_nodes (label_ne_absent_of_isClosed hc) hpart
      (nestedIn_of_mem_children (by simp) (hn _ hmem) (by simp)) hbelow
    exact List.forall_mem_singleton.mpr (spares_enclose h1 h2 _ _ e he)

include ha

theorem spares_body : ∀ e ∈ (publishBody G body).edits ++ returnEdits body, e.Spares n.span := by
  refine List.forall_mem_append.mpr ⟨fun e he => ?_, spares_returnEdits hf hn hb hm hc⟩
  obtain ⟨u, hu, he⟩ := mem_edits_all he
  exact spares_beside hc hm hu hb (fun t ht => ⟨_, hf t ht⟩) hn
    (insertsIn_span G .body (hf u hu) (hn u hu))
    (spares_publish G hc u .body (hf u hu) (hn u hu) (partsApart_of_mem ha hu)) e he

/-- Of an expression, a function, a class or an accessor anywhere in a cell, edits touch at most the
ends, and its text is kept in one piece. -/
theorem source_keeps_closed {d : Draft} (hd : within.stop ≤ d.size) :
    (∀ e ∈ (publishBody G body).edits ++ returnEdits body, e.Spares n.span) ∧
      ∃ d', d.applyAll ((publishBody G body).edits ++ returnEdits body) = .ok d' ∧
        ∃ before after, typedPart before = [] ∧ typedPart after = [] ∧
          d'.source = d'.slice ⟨0, n.span.start⟩ ++ (before ++ d.slice n.span ++ after) ++
            d'.slice ⟨n.span.stop, d'.size⟩ := by
  have hspares := spares_body G hf hn hb ha hm hc
  have hinserts := insertsIn_body G hf hn
  have hbounds : ∀ e ∈ (publishBody G body).edits ++ returnEdits body,
      e.range.start < e.range.stop ∧ e.range.stop ≤ d.size := fun e he =>
    ⟨(hinserts e he).start_lt_stop, Nat.le_trans (hinserts e he).stop_le hd⟩
  obtain ⟨d', hd'⟩ := Draft.exists_applyAll_eq_ok hbounds
  obtain ⟨-, hsize, hheld⟩ := Draft.applyAll_eq_ok hd'
  obtain ⟨t, ht, hmt⟩ := mem_nodesOf.mp hm
  have hnl := label_ne_absent_of_isClosed hc
  obtain ⟨-, hnn⟩ := nestedIn_of_mem_nodes hnl t (hf t ht) (hn t ht) hmt
  obtain ⟨-, hlt, hstop⟩ := nestedIn_span hnl hnn
  obtain ⟨before, after, hbefore, hafter, hkept⟩ :=
    stretch_of_spares hlt (fun e he => ⟨hspares e he, (hinserts e he).inserted⟩) d.held
  have hend : n.span.stop ≤ d'.size := by omega
  have hkeeps : stretch d'.held n.span.start n.span.stop = before ++ d.slice n.span ++ after := by
    rw [stretch_congr fun i _ _ => hheld i, hkept, Draft.slice_eq_stretch (Nat.le_of_lt hlt) (by omega)]
  have hfront : d'.slice ⟨0, n.span.start⟩ = stretch d'.held 0 n.span.start :=
    Draft.slice_eq_stretch (Nat.zero_le _) (Nat.le_trans (Nat.le_of_lt hlt) hend)
  have hback : d'.slice ⟨n.span.stop, d'.size⟩ = stretch d'.held n.span.stop d'.size :=
    Draft.slice_eq_stretch hend (Nat.le_refl _)
  refine ⟨hspares, d', hd', before, after, hbefore, hafter, ?_⟩
  rw [hfront, hback, ← hkeeps, stretch_append (Nat.zero_le _) (Nat.le_of_lt hlt),
    stretch_append (Nat.zero_le _) hend, Draft.source_eq_stretch]

end

/-- `let f = () => { var g };` -/
def arrowSample : List Tree :=
  [.node (.varDecl .block) ⟨0, 24⟩ [.node .declarator ⟨4, 23⟩ [.node (.name "f") ⟨4, 5⟩ [],
    .node .arrowExpr ⟨8, 23⟩ [.node (.arrow false) ⟨8, 23⟩ [.node .block ⟨14, 23⟩
      [.node (.varDecl .var) ⟨16, 21⟩ [.node .declarator ⟨20, 21⟩ [.node (.name "g") ⟨20, 21⟩ [], .absent]]]]]]]]

theorem source_keeps_arrowSample : ∃ d' before after,
    (Draft.ofText (typed "let f = () => \x7b var g \x7d;" none)).applyAll
        ((publishBody "G" arrowSample).edits ++ returnEdits arrowSample) = .ok d' ∧
      typedPart before = [] ∧ typedPart after = [] ∧
      d'.source = d'.slice ⟨0, 8⟩ ++
        (before ++ (Draft.ofText (typed "let f = () => \x7b var g \x7d;" none)).slice ⟨8, 23⟩ ++ after) ++
          d'.slice ⟨23, d'.size⟩ := by
  have hf : ∀ t ∈ arrowSample, t.fits .statement := by decide
  have hn : ∀ t ∈ arrowSample, t.nestedIn ⟨0, 24⟩ := by decide
  have hm : Script.Tree.node (.arrow false) ⟨8, 23⟩ [.node .block ⟨14, 23⟩ [.node (.varDecl .var) ⟨16, 21⟩
      [.node .declarator ⟨20, 21⟩ [.node (.name "g") ⟨20, 21⟩ [], .absent]]]] ∈
        Tree.nodesOf arrowSample := by
    simp [arrowSample, Tree.nodesOf, Tree.nodes]
  have hd : 24 ≤ (Draft.ofText (typed "let f = () => \x7b var g \x7d;" none)).size := by decide +kernel
  obtain ⟨-, d', h, before, after, hkept⟩ :=
    source_keeps_closed "G" hf hn (by decide) (by decide) hm rfl hd
  exact ⟨d', before, after, h, hkept⟩

end NotebookCell
