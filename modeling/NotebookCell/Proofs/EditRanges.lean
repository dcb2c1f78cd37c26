import NotebookCell.Proofs.PublishedNames
import NotebookCell.Proofs.Origins

/-!
# Where edits are made

The nodes of a tree stand inside of their parents, behind the keyword of a declaration. What a tree
publishes is edited into its own span, and only inserted characters come in.
-/

namespace NotebookCell

open Script TaggedText

/-! ## Nested spans -/

/-- How far the keyword of a node reaches. -/
def Script.Label.lead : Label → Nat
  | .varDecl kind => kind.word.utf8ByteSize
  | _ => 0

mutual

/-- The span lies inside of the given one, and so do those of the nodes below behind the keyword. An
absent part has no place. -/
def Script.Tree.nestedIn (within : Span) : Tree → Bool
  | .node label span children =>
    label == .absent ||
      (within.start ≤ span.start && span.start + label.lead < span.stop && span.stop ≤ within.stop &&
        nestedAllIn ⟨span.start + label.lead, span.stop⟩ children)

def Script.nestedAllIn (within : Span) : List Tree → Bool
  | [] => true
  | t :: ts => t.nestedIn within && nestedAllIn within ts

end

section
variable {within : Span} {label : Label} {span : Span} {t : Tree} {ts children : List Tree}

theorem nestedAllIn_cons : nestedAllIn within (t :: ts) ↔ t.nestedIn within ∧ nestedAllIn within ts := by
  simp [nestedAllIn]

theorem nestedIn_of_mem (h : nestedAllIn within ts) (ht : t ∈ ts) : t.nestedIn within := by
  induction ts with
  | nil => cases ht
  | cons u ts ih =>
    obtain ⟨hu, hts⟩ := nestedAllIn_cons.mp h
    rcases List.mem_cons.mp ht with rfl | ht
    · exact hu
    · exact ih hts ht

theorem nestedIn_node (hl : label ≠ .absent) (h : (Script.Tree.node label span children).nestedIn within) :
    within.start ≤ span.start ∧ span.start + label.lead < span.stop ∧ span.stop ≤ within.stop ∧
      nestedAllIn ⟨span.start + label.lead, span.stop⟩ children := by
  simpa [Tree.nestedIn, hl, and_assoc] using h

theorem nestedIn_span (hl : t.label ≠ .absent) (h : t.nestedIn within) :
    within.start ≤ t.span.start ∧ t.span.start < t.span.stop ∧ t.span.stop ≤ within.stop := by
  obtain ⟨label, span, children⟩ := t
  obtain ⟨h1, h2, h3, -⟩ := nestedIn_node hl h
  exact ⟨h1, Nat.lt_of_le_of_lt (Nat.le_add_right ..) h2, h3⟩

theorem nestedIn_mono {outer : Span} (h : t.nestedIn within) (h1 : outer.start ≤ within.start)
    (h2 : within.stop ≤ outer.stop) : t.nestedIn outer := by
  obtain ⟨label, span, children⟩ := t
  rw [Tree.nestedIn]
  by_cases hl : label = .absent
  · simp [hl]
  · obtain ⟨h3, h4, h5, h6⟩ := nestedIn_node hl h
    have h3 : outer.start ≤ span.start := by omega
    have h5 : span.stop ≤ outer.stop := by omega
    simp [h3, h4, h5, h6]

theorem nestedIn_self (hl : t.label ≠ .absent) (h : t.nestedIn within) : t.nestedIn t.span := by
  obtain ⟨label, span, children⟩ := t
  have hl : label ≠ .absent := hl
  obtain ⟨-, h2, -, h4⟩ := nestedIn_node hl h
  simp [Tree.nestedIn, Tree.span, h2, h4]

theorem nestedIn_of_mem_children (hl : label ≠ .absent)
    (h : (Script.Tree.node label span children).nestedIn within) (ht : t ∈ children) :
    t.nestedIn within := by
  obtain ⟨h1, -, h3, h4⟩ := nestedIn_node hl h
  exact nestedIn_mono (nestedIn_of_mem h4 ht) (Nat.le_trans h1 (Nat.le_add_right ..)) h3

end

/-! ## Inserting edits -/

def Edit.text : Edit → TaggedText
  | .replace _ text => text
  | .prepend _ text => text
  | .append _ text => text

/-- The edit brings inserted characters to a place inside of the span. -/
structure Edit.InsertsIn (within : Span) (e : Edit) : Prop where
  start_le : within.start ≤ e.range.start
  start_lt_stop : e.range.start < e.range.stop
  stop_le : e.range.stop ≤ within.stop
  inserted : typedPart e.text = []

theorem Edit.InsertsIn.mono {within outer : Span} {e : Edit} (h : e.InsertsIn within)
    (h1 : outer.start ≤ within.start) (h2 : within.stop ≤ outer.stop) : e.InsertsIn outer :=
  ⟨Nat.le_trans h1 h.start_le, h.start_lt_stop, Nat.le_trans h.stop_le h2, h.inserted⟩

def Published.InsertsIn (within : Span) (p : Published) : Prop := ∀ e ∈ p.edits, e.InsertsIn within

namespace Published.InsertsIn

variable {within : Span} {p q : Published}

theorem none : Published.none.InsertsIn within := fun _ he => nomatch he

theorem append (hp : p.InsertsIn within) (hq : q.InsertsIn within) : (p ++ q).InsertsIn within :=
  fun e he => (List.mem_append.mp he).elim (hp e) (hq e)

theorem all {f : Tree → Published} {ts : List Tree} (h : ∀ t ∈ ts, (f t).InsertsIn within) :
    (Published.all f ts).InsertsIn within := by
  induction ts with
  | nil => exact none
  | cons t ts ih => exact (h t (by simp)).append (ih fun u hu => h u (by simp [hu]))

end Published.InsertsIn

theorem insertsIn_enclose {within range : Span} (h1 : within.start ≤ range.start)
    (h2 : range.start < range.stop) (h3 : range.stop ≤ within.stop) (before after : String) :
    ∀ e ∈ enclose range before after, e.InsertsIn within := by
  intro e he
  rcases List.mem_pair.mp he with rfl | rfl
  · exact ⟨h1, h2, h3, typedPart_inserted before⟩
  · exact ⟨h1, h2, h3, typedPart_inserted after⟩

section
variable (G : String) (kind : VarKind) {within : Span}

theorem insertsIn_name {label : Label} {span : Span} {children : List Tree} (hl : label ≠ .absent)
    (h : (Script.Tree.node label span children).nestedIn within) (name : String) :
    (publishName G kind span name).InsertsIn within := by
  intro e he
  obtain ⟨h1, h2, h3⟩ := nestedIn_span (t := .node label span children) hl h
  rcases List.mem_singleton.mp he with rfl
  exact ⟨h1, h2, h3, typedPart_inserted _⟩

theorem insertsIn_target (t : Tree) (h : t.nestedIn within) :
    (publishTarget G kind t).InsertsIn within := by
  fun_induction publishTarget G kind t with
  | case1 name span children => exact insertsIn_name G kind (by simp) h name
  | case2 span target rest ih => exact ih (nestedIn_of_mem_children (by simp) h (by simp))
  | case3 span target rest ih => exact ih (nestedIn_of_mem_children (by simp) h (by simp))
  | case4 => exact .none

theorem insertsIn_property (t : Tree) (h : t.nestedIn within) :
    (publishProperty G kind t).InsertsIn within := by
  fun_cases publishProperty G kind t with
  | case1 span key value =>
    exact insertsIn_target G kind value (nestedIn_of_mem_children (by simp) h (by simp))
  | case2 span name nameSpan children rest =>
    intro e he
    have hn := nestedIn_of_mem_children (t := .node (.name name) nameSpan children) (by simp) h (by simp)
    obtain ⟨h1, h2, h3⟩ := nestedIn_span (by simp [Tree.label]) hn
    rcases List.mem_singleton.mp he with rfl
    exact ⟨h1, h2, h3, typedPart_inserted _⟩
  | case3 span target rest =>
    exact insertsIn_target G kind target (nestedIn_of_mem_children (by simp) h (by simp))
  | case4 => exact .none

mutual

theorem insertsIn_pattern : ∀ t : Tree, t.nestedIn within → (publishPattern G kind t).InsertsIn within
  | .node label span children, h => by
    cases label with
    | objectPattern =>
      have hc := fun t ht => nestedIn_of_mem_children (t := t) (by simp) h ht
      rw [publishPattern]
      exact .append (.all fun t ht => insertsIn_property G kind t (hc t ht))
        (insertsIn_patternsOf children hc)
    | arrayPattern =>
      have hc := fun t ht => nestedIn_of_mem_children (t := t) (by simp) h ht
      rw [publishPattern]
      exact .append (.all fun t ht => insertsIn_target G kind t (hc t ht))
        (insertsIn_patterns children hc)
    | withDefault =>
      cases children with
      | nil => exact .none
      | cons target rest => exact insertsIn_pattern target (nestedIn_of_mem_children (by simp) h (by simp))
    | rest =>
      cases children with
      | nil => exact .none
      | cons target rest => exact insertsIn_pattern target (nestedIn_of_mem_children (by simp) h (by simp))
    | _ => exact .none

theorem insertsIn_patterns : ∀ ts : List Tree, (∀ t ∈ ts, t.nestedIn within) →
    (publishPatterns G kind ts).InsertsIn within
  | [], _ => .none
  | t :: ts, h => .append (insertsIn_pattern t (h t (by simp)))
    (insertsIn_patterns ts fun u hu => h u (by simp [hu]))

theorem insertsIn_patternsOf : ∀ ts : List Tree, (∀ t ∈ ts, t.nestedIn within) →
    (publishPatternsOf G kind ts).InsertsIn within
  | [], _ => .none
  | t :: ts, h => by
    rw [publishPatternsOf_cons]
    exact .append (insertsIn_patternOf t (h t (by simp)))
      (insertsIn_patternsOf ts fun u hu => h u (by simp [hu]))

theorem insertsIn_patternOf : ∀ t : Tree, t.nestedIn within →
    (publishPatternsOf G kind [t]).InsertsIn within
  | .node label span children, h => by
    cases label with
    | keyValue =>
      match children with
      | [key, value] =>
        exact .append (insertsIn_pattern value (nestedIn_of_mem_children (by simp) h (by simp))) .none
      | [] | [_] | _ :: _ :: _ :: _ => exact .none
    | rest =>
      cases children with
      | nil => exact .none
      | cons target rest =>
        exact .append (insertsIn_pattern target (nestedIn_of_mem_children (by simp) h (by simp))) .none
    | _ => exact .none

end

/-! ## Declarations -/

theorem insertsIn_declaratorEdits {span : Span} {init : Tree} (h1 : within.start ≤ span.start)
    (h2 : span.start < span.stop) (h3 : span.stop ≤ within.stop) (hi : init.nestedIn within) :
    ∀ e ∈ declaratorEdits span init, e.InsertsIn within := by
  fun_cases declaratorEdits span init with
  | case1 => exact insertsIn_enclose h1 h2 h3 _ _
  | case2 init hl =>
    have hl : init.label ≠ .absent := by
      obtain ⟨label, ispan, children⟩ := init
      rintro rfl
      exact hl ispan children rfl
    obtain ⟨h4, h5, h6⟩ := nestedIn_span hl hi
    refine List.forall_mem_append.mpr ⟨?_, List.forall_mem_singleton.mpr ?_⟩
    · exact List.forall_mem_cons.mpr
        ⟨⟨h1, h2, h3, typedPart_inserted _⟩, insertsIn_enclose h4 h5 h6 _ _⟩
    · exact ⟨h1, h2, h3, typedPart_inserted _⟩

theorem insertsIn_declarator (form : DeclarationForm) {d : Tree} (h : d.nestedIn within) :
    (publishDeclarator G kind form d).InsertsIn within := by
  fun_cases publishDeclarator G kind form d with
  | case1 span target init =>
    have ht : target.nestedIn within := nestedIn_of_mem_children (by simp) h (by simp)
    have hi : init.nestedIn within := nestedIn_of_mem_children (by simp) h (by simp)
    obtain ⟨h1, h2, h3⟩ := nestedIn_span (by simp [Tree.label]) h
    refine .append (.append (insertsIn_target G kind target ht) (insertsIn_pattern G kind target ht)) ?_
    show ∀ e ∈ if form = .statement then declaratorEdits span init else [], e.InsertsIn within
    split
    · exact insertsIn_declaratorEdits h1 h2 h3 hi
    · simp
  | case2 => exact .none

theorem insertsIn_closeDeclaration {ds : List Tree}
    (h : ∀ d ∈ ds, d.nestedIn within ∧ d.label ≠ .absent) :
    ∀ e ∈ closeDeclaration ds, e.InsertsIn within := by
  fun_cases closeDeclaration ds with
  | case1 d hd =>
    obtain ⟨hn, hl⟩ := h d (List.mem_of_getLast? hd)
    obtain ⟨h1, h2, h3⟩ := nestedIn_span hl hn
    exact List.forall_mem_singleton.mpr ⟨h1, h2, h3, typedPart_inserted _⟩
  | case2 => simp

theorem start_lt_word (span : Span) : span.start < span.start + kind.word.utf8ByteSize := by
  cases kind <;> exact Nat.lt_add_of_pos_right (by decide)

theorem insertsIn_keyword {span : Span} (h1 : within.start ≤ span.start)
    (h2 : span.start + kind.word.utf8ByteSize ≤ within.stop) (text : String) :
    (Edit.replace ⟨span.start, span.start + kind.word.utf8ByteSize⟩ (inserted text)).InsertsIn
      within :=
  ⟨h1, start_lt_word kind span, h2, typedPart_inserted text⟩

theorem insertsIn_declaration (form : DeclarationForm) {span : Span} {ds : List Tree}
    (h : (Script.Tree.node (.varDecl kind) span ds).nestedIn within) (hl : ∀ d ∈ ds, d.label ≠ .absent) :
    (publishDeclaration G kind form span ds).InsertsIn within := by
  have hd := fun d hd => nestedIn_of_mem_children (t := d) (by simp) h hd
  obtain ⟨h1, h2, h3, -⟩ := nestedIn_node (by simp) h
  refine .append (.append ?_ (.all fun d hd' => insertsIn_declarator G kind form (hd d hd'))) ?_
  · exact List.forall_mem_singleton.mpr
      (insertsIn_keyword kind h1 (Nat.le_trans (Nat.le_of_lt h2) h3) _)
  · show ∀ e ∈ if form = .statement then closeDeclaration ds else [], e.InsertsIn within
    split
    · exact insertsIn_closeDeclaration fun d hd' => ⟨hd d hd', hl d hd'⟩
    · simp

/-! ## Statements -/

theorem label_ne_absent_of_fits {t : Tree} {part : Part} (h : t.fits part)
    (hp : part.allows .absent = false) : t.label ≠ .absent := by
  obtain ⟨label, span, children⟩ := t
  simp only [Tree.fits, Bool.and_eq_true] at h
  rintro rfl
  rw [hp] at h
  exact absurd h.1 (by simp)

theorem fits_of_mem {part : Part} {ts : List Tree} (h : fitsAll (List.replicate ts.length part) ts)
    {t : Tree} (ht : t ∈ ts) : t.fits part := by
  induction ts with
  | nil => cases ht
  | cons u ts ih =>
    simp only [List.length_cons, List.replicate_succ, fitsAll, Bool.and_eq_true] at h
    rcases List.mem_cons.mp ht with rfl | ht
    · exact h.1
    · exact ih h.2 ht

theorem insertsIn_of_isDeclaration {label : Label} {span : Span} {children : List Tree}
    (hl : label.isDeclaration) (hf : fitsAll (label.parts children.length) children)
    (h : (Script.Tree.node label span children).nestedIn within) (place : Place) :
    (publish G place (.node label span children)).InsertsIn within := by
  have ha : label ≠ .absent := by rintro rfl; cases hl
  have hc := fun t ht => nestedIn_of_mem_children (t := t) ha h ht
  cases label with
  | funDecl =>
    obtain ⟨target, fn, rfl, hn, hfn⟩ := fitsAll_pair hf
    obtain ⟨name, nameSpan, rfl⟩ := eq_name_of_fits hn
    obtain ⟨h1, h2, h3⟩ := nestedIn_span (label_ne_absent_of_fits hfn rfl) (hc fn (by simp))
    exact insertsIn_enclose h1 h2 h3 _ _
  | classDecl =>
    obtain ⟨target, cls, rfl, hn, hcls⟩ := fitsAll_pair hf
    obtain ⟨name, nameSpan, rfl⟩ := eq_name_of_fits hn
    obtain ⟨h1, h2, h3⟩ := nestedIn_span (label_ne_absent_of_fits hcls rfl) (hc cls (by simp))
    rw [publish]
    split
    · exact insertsIn_enclose h1 h2 h3 _ _
    · exact .none
  | varDecl kind =>
    have hd : ∀ d ∈ children, d.label ≠ .absent := fun d hd =>
      label_ne_absent_of_fits (fits_of_mem hf hd) rfl
    rw [publish]
    split
    · exact insertsIn_declaration G kind _ h hd
    · exact .none
  | _ => cases hl

mutual

theorem insertsIn_publish : ∀ (t : Tree) {part : Part} (place : Place), t.fits part → t.nestedIn within →
    (publish G place t).InsertsIn within
  | .node label span children, part, place, hf, h => by
    simp only [Tree.fits, Bool.and_eq_true] at hf
    cases hd : label.isDeclaration with
    | true => exact insertsIn_of_isDeclaration G hd hf.2 h place
    | false =>
      rw [publish_of_not_isDeclaration G hd]
      split
      · exact .none
      · by_cases ha : label = .absent
        · subst ha
          rw [fitsAll_nil hf.2]
          exact .none
        · exact insertsIn_publishFrom children _ hf.2 fun t ht => nestedIn_of_mem_children ha h ht

theorem insertsIn_publishFrom : ∀ (ts : List Tree) {parts : List Part} (first : Place), fitsAll parts ts →
    (∀ t ∈ ts, t.nestedIn within) → (publishFrom G first ts).InsertsIn within
  | [], _, _, _, _ => .none
  | t :: ts, parts, first, hf, h => by
    obtain ⟨part, rest, rfl, ht, hts⟩ := fitsAll_cons hf
    exact .append (insertsIn_publish t first ht (h t (by simp)))
      (insertsIn_publishFrom ts .inner hts fun u hu => h u (by simp [hu]))

end

theorem insertsIn_returnEdits {body : List Tree} (hf : ∀ t ∈ body, t.fits .statement)
    (h : ∀ t ∈ body, t.nestedIn within) {e : Edit} (he : e ∈ returnEdits body) :
    ∃ last, body.getLast? = some last ∧ last.label = .exprStmt ∧ e.InsertsIn last.span := by
  revert e
  fun_cases returnEdits body with
  | case1 span value hlast =>
    intro e he
    have hm := List.mem_of_getLast? hlast
    have hfv := hf _ hm
    simp only [Tree.fits, Bool.and_eq_true] at hfv
    have hv : value.fits .expression := by simpa [Label.parts, fitsAll] using hfv.2
    obtain ⟨h1, h2, h3⟩ := nestedIn_span (label_ne_absent_of_fits hv rfl)
      (nestedIn_of_mem_children (by simp) (nestedIn_self (by simp [Tree.label]) (h _ hm)) (by simp))
    exact ⟨_, hlast, rfl, insertsIn_enclose h1 h2 h3 _ _ e he⟩
  | case2 =>
    intro e he
    cases he

theorem insertsIn_body {body : List Tree} (hf : ∀ t ∈ body, t.fits .statement)
    (h : ∀ t ∈ body, t.nestedIn within) :
    ∀ e ∈ (publishBody G body).edits ++ returnEdits body, e.InsertsIn within := by
  refine List.forall_mem_append.mpr ⟨?_, fun e he => ?_⟩
  · exact Published.InsertsIn.all fun t ht => insertsIn_publish G t .body (hf t ht) (h t ht)
  · obtain ⟨last, hlast, hl, hin⟩ := insertsIn_returnEdits hf h he
    obtain ⟨h1, -, h3⟩ := nestedIn_span (by simp [hl]) (h last (List.mem_of_getLast? hlast))
    exact hin.mono h1 h3

end

end NotebookCell
