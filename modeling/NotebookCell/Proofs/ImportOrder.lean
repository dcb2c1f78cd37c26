import NotebookCell.Proofs.KeptText
import NotebookCell.Proofs.ParserRuns

/-!
# Import declarations in order

The import declarations of a module that was read from a text follow one another in it, and so do
the names, the specifier string and the attributes inside of each of them: a parser takes tokens in
the order of the text, and each of these parts takes at least one. All of them go from character to
character, as tokens do.
-/

namespace NotebookCell.Script

/-! ## Declarations between positions -/

/-- The import declaration that an item is, if it is one. -/
def ModuleItem.importDecl? : ModuleItem → Option ImportDecl
  | .importDecl d => some d
  | _ => none

theorem Module.imports_eq (m : Module) : m.imports = m.items.filterMap ModuleItem.importDecl? := by
  unfold Module.imports
  congr

/-- The spans follow one another between two positions, and each of them goes from character to
character of the text. -/
structure SpansBetween (text : List Char) (start : Nat) (spans : List Span) (stop : Nat) : Prop where
  ascending : ascending start spans stop
  boundaries : ∀ s ∈ spans, IsBoundary text s.start ∧ IsBoundary text s.stop

namespace SpansBetween

variable {text : List Char} {start middle stop start' stop' : Nat} {spans spans' : List Span}

theorem nil (h : start ≤ stop) : SpansBetween text start [] stop :=
  ⟨decide_eq_true h, fun _ h => nomatch h⟩

theorem singleton {s : Span} (hstart : start ≤ s.start) (h : s.start < s.stop) (hstop : s.stop ≤ stop)
    (hboundaries : IsBoundary text s.start ∧ IsBoundary text s.stop) :
    SpansBetween text start [s] stop := by
  refine ⟨ascending_cons.mpr ⟨hstart, h, decide_eq_true hstop⟩, fun s' hs' => ?_⟩
  rwa [List.mem_singleton.mp hs']

theorem le (h : SpansBetween text start spans stop) : start ≤ stop := le_of_ascending h.ascending

theorem mono (h : SpansBetween text start spans stop) (hstart : start' ≤ start)
    (hstop : stop ≤ stop') : SpansBetween text start' spans stop' :=
  ⟨ascending_mono h.ascending hstart hstop, h.boundaries⟩

theorem append (h : SpansBetween text start spans middle)
    (h' : SpansBetween text middle spans' stop) :
    SpansBetween text start (spans ++ spans') stop :=
  ⟨ascending_append h.ascending h'.ascending,
    fun s hs => (List.mem_append.mp hs).elim (h.boundaries s) (h'.boundaries s)⟩

end SpansBetween

/-- The declaration begins with its keyword, and its parts follow one another inside of it. -/
structure ImportDecl.Spelled (d : ImportDecl) (text : List Char) : Prop where
  copied : SpansBetween text d.span.start d.copied d.span.stop
  keyword : ∃ cs, Reaches text d.span.start cs ∧ cs.head? ≠ some ';'

/-- The declarations follow one another between two positions of the text. -/
structure ImportsBetween (text : List Char) (start : Nat) (ds : List ImportDecl) (stop : Nat) : Prop
    where
  imports : SpansBetween text start (ds.map (·.span)) stop
  each : ∀ d ∈ ds, d.Spelled text

namespace ImportsBetween

variable {text : List Char} {start middle stop start' stop' : Nat} {ds ds' : List ImportDecl}

theorem nil (h : start ≤ stop) : ImportsBetween text start [] stop :=
  ⟨.nil h, fun _ h => nomatch h⟩

theorem mono (h : ImportsBetween text start ds stop) (hstart : start' ≤ start)
    (hstop : stop ≤ stop') : ImportsBetween text start' ds stop' :=
  ⟨h.imports.mono hstart hstop, h.each⟩

theorem append (h : ImportsBetween text start ds middle) (h' : ImportsBetween text middle ds' stop) :
    ImportsBetween text start (ds ++ ds') stop := by
  refine ⟨?_, fun d hd => (List.mem_append.mp hd).elim (h.each d) (h'.each d)⟩
  rw [List.map_append]
  exact h.imports.append h'.imports

/-- A declaration is not empty, since its specifier string is not. -/
theorem singleton {d : ImportDecl} (h : d.Spelled text)
    (hboundaries : IsBoundary text d.span.start ∧ IsBoundary text d.span.stop) :
    ImportsBetween text d.span.start [d] d.span.stop := by
  have hsource : d.source ∈ d.copied := by simp [ImportDecl.copied]
  have hb := bounds_of_mem_ascending h.copied.ascending hsource
  have hpos : d.span.start < d.span.stop := by omega
  constructor
  · exact .singleton (Nat.le_refl _) hpos (Nat.le_refl _) hboundaries
  · intro d' hd'
    rwa [List.mem_singleton.mp hd']

end ImportsBetween

namespace Parser

/-- A current token that is not empty is taken. -/
theorem spansBetween_bumped {s : State} {text : List Char} {l : Lexeme} (hs : s.Sound text)
    (hl : s.current = some l) (hpos : ∀ cs k, l.token.HasText cs k → 0 < k) :
    SpansBetween text s.previous.stop [s.bumped.previous] s.bumped.previous.stop := by
  obtain ⟨⟨hstart, hspan, -, ⟨cs, hcs, htext⟩, hstop⟩, htaken⟩ := hs.taken hl
  have hpos := hpos _ _ htext
  rw [htaken]
  exact .singleton hstart (by omega) (Nat.le_refl _) ⟨hcs.isBoundary, hstop⟩

/-! ## The keyword -/

theorem head?_ne_of_spells {token : Token} {cs : List Char} {n : Nat} (h : token.spells "import")
    (htext : token.HasText cs n) : cs.head? ≠ some ';' := by
  cases token with
  | word name bare => exact htext.2
  | punct p =>
    obtain ⟨rest, hrest⟩ := htext.2
    rw [← hrest, eq_of_beq h]
    simp
  | _ => simp [Token.spells] at h

theorem current_of_seesImportDeclaration {c : Context} {s s' : State}
    (h : seesImportDeclaration.Reads c s true s') :
    ∃ l, s'.current = some l ∧ l.token.spells "import" := by
  simp only [seesImportDeclaration, reads_bind] at h
  obtain ⟨found, t, hsees, h⟩ := h
  split at h
  · simp at h
  rename_i hfound
  rw [Bool.not_eq_true', Bool.not_eq_false] at hfound
  rw [hfound] at hsees
  obtain ⟨l, hl, himport⟩ := current_of_reads_sees hsees
  simp only [reads_bind] at h
  obtain ⟨_, u, hcall, h⟩ := h
  split at h
  · simp at h
  simp only [reads_bind, reads_pure] at h
  obtain ⟨_, v, hmember, -, rfl, -⟩ := h
  exact ⟨l, current_of_reads_peeks (current_of_reads_peeks hl hcall) hmember, himport⟩

section
variable {α : Type} {c : Context} {s s' : State} {text : List Char} {n : Nat} {r : Rules}
  (hc : c.inModule = true)
include hc

/-! ## Lists -/

/-- Items between commas follow one another if the parts of each of them do. -/
theorem spansBetween_commaSeparated {close : String} {item : List α → Parser α}
    {afterComma : α → Parser Unit} {spans : α → List Span} {found : List α}
    (h : (commaSeparated close item afterComma).Reads c s found s') (hs : s.Sound text)
    (hitem : ∀ found a t t', (item found).Reads c t a t' → t.Sound text →
      SpansBetween text t.previous.stop (spans a) t'.previous.stop) :
    SpansBetween text s.previous.stop (found.flatMap spans) s'.previous.stop := by
  have hloop := exists_of_reads_loop
    (fun found t => t.Sound text ∧
      SpansBetween text s.previous.stop (found.reverse.flatMap spans) t.previous.stop)
    h ⟨hs, .nil (Nat.le_refl _)⟩ fun found next t t' hinv hstep => by
      obtain ⟨ht, hfound⟩ := hinv
      simp only [reads_bind] at hstep
      obtain ⟨_, u, hu, _, v, hv, hstep⟩ := hstep
      obtain ⟨hu, htu⟩ := hu.sound hc ht
      obtain ⟨hv, huv⟩ := hv.sound hc hu
      split at hstep
      · simp at hstep
      simp only [reads_bind, reads_pure] at hstep
      obtain ⟨a, w, hw, _, x, hx, heq, rfl, -⟩ := hstep
      cases heq
      have ha := hitem found a v w hw hv
      obtain ⟨hx, hwx⟩ := hx.sound hc (hw.sound hc hv).1
      rw [List.reverse_cons, List.flatMap_append, List.flatMap_singleton]
      exact ⟨hx, (hfound.mono (Nat.le_refl _) (Nat.le_trans htu huv)).append
        (ha.mono (Nat.le_refl _) hwx)⟩
  obtain ⟨found', t, ⟨ht, hfound⟩, hlast⟩ := hloop
  have hle := (hlast.sound hc ht).2
  simp only [reads_bind] at hlast
  obtain ⟨_, u, -, _, v, -, hlast⟩ := hlast
  split at hlast
  · obtain ⟨heq, -⟩ := reads_pure.mp hlast
    cases heq
    exact hfound.mono (Nat.le_refl _) hle
  · simp at hlast

/-- What holds at the start and is kept by each item holds at the end. -/
theorem inv_of_reads_many (Inv : List α → State → Prop) {step : Parser (Option α)} {found : List α}
    (h : (many step).Reads c s found s') (hs : s.Sound text) (hinit : Inv [] s)
    (hstep : ∀ found a t t', Inv found t → t.Sound text → step.Reads c t (some a) t' →
      Inv (found ++ [a]) t')
    (hend : ∀ found t t', Inv found t → t.previous.stop ≤ t'.previous.stop → Inv found t') :
    Inv found s' := by
  have hloop := exists_of_reads_loop
    (fun found t => t.Sound text ∧ Inv found.reverse t) h ⟨hs, hinit⟩
    fun found next t t' hinv hround => by
      obtain ⟨ht, hfound⟩ := hinv
      simp only [reads_bind] at hround
      obtain ⟨a, u, hu, hround⟩ := hround
      have ht' := (hu.sound hc ht).1
      split at hround
      · rename_i a
        obtain ⟨heq, rfl, -⟩ := reads_pure.mp hround
        cases heq
        rw [List.reverse_cons]
        exact ⟨ht', hstep _ a t _ hfound ht hu⟩
      · simp at hround
  obtain ⟨found', t, ⟨ht, hfound⟩, hlast⟩ := hloop
  have hle := (hlast.sound hc ht).2
  simp only [reads_bind] at hlast
  obtain ⟨a, u, -, hlast⟩ := hlast
  split at hlast
  · simp at hlast
  · obtain ⟨heq, -⟩ := reads_pure.mp hlast
    cases heq
    exact hend _ t s' hfound hle

/-! ## Names and strings -/

theorem spansBetween_identifierName {id : Ident} (h : identifierName.Reads c s id s')
    (hs : s.Sound text) : SpansBetween text s.previous.stop [id.span] s'.previous.stop := by
  simp only [identifierName, reads_bind] at h
  obtain ⟨start, t, hstart, token, u, hrequired, h⟩ := h
  split at h
  · obtain ⟨hsound, hboundary, hle, hlt⟩ := bumped_required hc hstart hrequired hs fun _ _ h => h.1
    simp only [reads_bind, reads_bump, reads_spanFrom, reads_pure] at h
    obtain ⟨_, _, ⟨rfl, -⟩, _, _, ⟨rfl, rfl, -⟩, rfl, rfl, -⟩ := h
    exact .singleton hle hlt (Nat.le_refl _) ⟨hboundary, hsound.isBoundary⟩
  · simp at h

theorem spansBetween_identifier {allowsYield allowsAwait : Bool} {id : Ident}
    (h : (identifier allowsYield allowsAwait).Reads c s id s') (hs : s.Sound text) :
    SpansBetween text s.previous.stop [id.span] s'.previous.stop := by
  simp only [identifier, reads_bind] at h
  obtain ⟨start, t, hstart, token, u, hrequired, h⟩ := h
  split at h
  · obtain ⟨hsound, hboundary, hle, hlt⟩ := bumped_required hc hstart hrequired hs fun _ _ h => h.1
    simp only [reads_bind, reads_bump, reads_previousSpan, reads_spanFrom, reads_pure] at h
    obtain ⟨_, _, ⟨rfl, -⟩, _, _, ⟨rfl, rfl, -⟩, _, _, hcheck, _, _, ⟨rfl, rfl, -⟩, rfl, rfl, -⟩ := h
    obtain ⟨hsound, hle'⟩ := hcheck.sound hc hsound
    exact .singleton hle (Nat.lt_of_lt_of_le hlt hle') (Nat.le_refl _)
      ⟨hboundary, hsound.isBoundary⟩
  · simp at h

theorem spansBetween_bindingIdentifier {id : Ident} (h : bindingIdentifier.Reads c s id s')
    (hs : s.Sound text) : SpansBetween text s.previous.stop [id.span] s'.previous.stop := by
  simp only [bindingIdentifier, reads_bind, reads_pure] at h
  obtain ⟨_, t, hid, _, _, hcheck, rfl, rfl, -⟩ := h
  have hspan := spansBetween_identifier hc hid hs
  exact hspan.mono (Nat.le_refl _) (hcheck.sound hc (hid.sound hc hs).1).2

theorem spansBetween_importedBinding {id : Ident} (h : importedBinding.Reads c s id s')
    (hs : s.Sound text) : SpansBetween text s.previous.stop [id.span] s'.previous.stop := by
  refine spansBetween_bindingIdentifier ?_ (reads_inContext.mp h) hs
  exact hc

theorem spansBetween_exportName {name : ExportName} (h : exportName.Reads c s name s')
    (hs : s.Sound text) : SpansBetween text s.previous.stop [name.span] s'.previous.stop := by
  simp only [exportName, reads_bind] at h
  obtain ⟨token, t, hcurrent, h⟩ := h
  obtain ⟨ht, hst⟩ := hcurrent.sound hc hs
  obtain ⟨htoken, rfl, -⟩ := reads_currentToken.mp hcurrent
  split at h
  · simp only [reads_bind, reads_pure] at h
    obtain ⟨id, u, hid, rfl, rfl, -⟩ := h
    exact (spansBetween_identifierName hc hid ht).mono hst (Nat.le_refl _)
  · obtain ⟨l, hl, htext⟩ := Option.map_eq_some_iff.mp htoken.symm
    simp only [reads_bind, reads_bump, reads_previousSpan, reads_pure] at h
    obtain ⟨_, _, ⟨rfl, -⟩, _, _, ⟨rfl, rfl, -⟩, rfl, rfl, -⟩ := h
    exact (spansBetween_bumped ht hl (by rw [htext]; exact fun _ _ h => h)).mono hst
      (Nat.le_refl _)
  · simp at h

theorem spansBetween_moduleSpecifier {span : Span} (h : moduleSpecifier.Reads c s span s')
    (hs : s.Sound text) : SpansBetween text s.previous.stop [span] s'.previous.stop := by
  simp only [moduleSpecifier, reads_bind] at h
  obtain ⟨token, t, hrequired, h⟩ := h
  obtain ⟨ht, hst⟩ := hrequired.sound hc hs
  obtain ⟨-, l, hl, rfl⟩ := reads_required hrequired
  split at h
  · rename_i htext
    simp only [reads_bind, reads_bump, reads_previousSpan] at h
    obtain ⟨_, _, ⟨rfl, -⟩, rfl, rfl, -⟩ := h
    exact (spansBetween_bumped ht hl (by rw [htext]; exact fun _ _ h => h)).mono hst
      (Nat.le_refl _)
  · simp at h

/-! ## What is bound -/

theorem spansBetween_importSpecifier {specifier : ImportSpecifier}
    (h : importSpecifier.Reads c s specifier s') (hs : s.Sound text) :
    SpansBetween text s.previous.stop specifier.copied s'.previous.stop := by
  simp only [importSpecifier, reads_bind] at h
  obtain ⟨token, t, htoken, name, u, hname, found, v, heat, h⟩ := h
  obtain ⟨ht, hst⟩ := htoken.sound hc hs
  obtain ⟨hv, huv⟩ := heat.sound hc (hname.sound hc ht).1
  have hspan := (spansBetween_exportName hc hname ht).mono hst huv
  split at h
  · simp only [reads_bind, reads_pure] at h
    obtain ⟨id, w, hid, rfl, rfl, -⟩ := h
    exact hspan.append (spansBetween_importedBinding hc hid hv)
  split at h
  · obtain ⟨rfl, rfl, -⟩ := reads_pure.mp h
    exact hspan
  · simp at h
  · simp at h

theorem spansBetween_importSpecifiers {specifiers : List ImportSpecifier}
    (h : importSpecifiers.Reads c s specifiers s') (hs : s.Sound text) :
    SpansBetween text s.previous.stop (specifiers.flatMap ImportSpecifier.copied) s'.previous.stop := by
  simp only [importSpecifiers, reads_bind, reads_pure] at h
  obtain ⟨_, t, ht, _, u, hfound, _, _, hclose, rfl, rfl, -⟩ := h
  obtain ⟨ht, hst⟩ := ht.sound hc hs
  have hle := (hclose.sound hc (hfound.sound hc ht).1).2
  have hspans :=
    spansBetween_commaSeparated hc hfound ht fun _ _ _ _ => spansBetween_importSpecifier hc
  exact hspans.mono hst hle

theorem spansBetween_importClause {specifiers : List ImportSpecifier}
    (h : importClause.Reads c s specifiers s') (hs : s.Sound text) :
    SpansBetween text s.previous.stop (specifiers.flatMap ImportSpecifier.copied) s'.previous.stop := by
  simp only [importClause, reads_bind] at h
  obtain ⟨_, t, heat, h⟩ := h
  obtain ⟨ht, hst⟩ := heat.sound hc hs
  split at h
  · simp only [reads_bind, reads_pure] at h
    obtain ⟨_, u, hu, id, v, hid, rfl, rfl, -⟩ := h
    obtain ⟨hu, htu⟩ := hu.sound hc ht
    exact (spansBetween_importedBinding hc hid hu).mono (Nat.le_trans hst htu) (Nat.le_refl _)
  simp only [reads_bind] at h
  obtain ⟨_, u, hu, h⟩ := h
  obtain ⟨hu, htu⟩ := hu.sound hc ht
  split at h
  · exact (spansBetween_importSpecifiers hc h hu).mono (Nat.le_trans hst htu) (Nat.le_refl _)
  · obtain ⟨rfl, rfl, -⟩ := reads_pure.mp h
    exact .nil (Nat.le_trans hst htu)

/-- What is bound is the phase itself or stands behind it. -/
theorem spansBetween_afterPhase {phase : Ident} {found : Option Ident}
    (h : (afterPhase phase).Reads c s found s') (hs : s.Sound text)
    (hphase : SpansBetween text n [phase.span] s.previous.stop) :
    SpansBetween text n (found.map (·.span)).toList s'.previous.stop := by
  -- the phase is what is bound only if no binding comes behind it
  have hn := hphase.le
  have hkept := hphase.mono (Nat.le_refl _) (h.sound hc hs).2
  simp only [afterPhase, reads_bind] at h
  obtain ⟨_, t, ht, h⟩ := h
  obtain ⟨ht, hst⟩ := ht.sound hc hs
  split at h
  · obtain ⟨rfl, -⟩ := reads_pure.mp h
    exact hkept
  simp only [reads_bind] at h
  obtain ⟨_, u, hu, h⟩ := h
  obtain ⟨hu, htu⟩ := hu.sound hc ht
  split at h
  · simp only [reads_bind] at h
    obtain ⟨_, v, hv, h⟩ := h
    obtain ⟨hv, huv⟩ := hv.sound hc hu
    split at h
    · simp only [reads_bind, reads_pure] at h
      obtain ⟨id, w, hid, rfl, rfl, -⟩ := h
      exact (spansBetween_importedBinding hc hid hv).mono (by omega) (Nat.le_refl _)
    · obtain ⟨rfl, -⟩ := reads_pure.mp h
      exact hkept
  simp only [reads_bind] at h
  obtain ⟨_, v, hv, h⟩ := h
  obtain ⟨hv, huv⟩ := hv.sound hc hu
  split at h
  · obtain ⟨rfl, rfl, -⟩ := reads_pure.mp h
    exact .nil (by omega)
  · simp only [reads_bind, reads_pure] at h
    obtain ⟨id, w, hid, rfl, rfl, -⟩ := h
    exact (spansBetween_importedBinding hc hid hv).mono (by omega) (Nat.le_refl _)

theorem spansBetween_defaultBinding? {found : Option Ident} (h : defaultBinding?.Reads c s found s')
    (hs : s.Sound text) :
    SpansBetween text s.previous.stop (found.map (·.span)).toList s'.previous.stop := by
  simp only [defaultBinding?, reads_bind] at h
  obtain ⟨_, t, ht, h⟩ := h
  obtain ⟨ht, hst⟩ := ht.sound hc hs
  split at h
  · obtain ⟨rfl, rfl, -⟩ := reads_pure.mp h
    exact .nil hst
  simp only [reads_bind] at h
  obtain ⟨id, u, hid, h⟩ := h
  have hu := (hid.sound hc ht).1
  have hspan := (spansBetween_importedBinding hc hid ht).mono hst (Nat.le_refl _)
  split at h
  · exact spansBetween_afterPhase hc h hu hspan
  · obtain ⟨rfl, rfl, -⟩ := reads_pure.mp h
    exact hspan

theorem spansBetween_importBindings {specifiers : List ImportSpecifier}
    (h : importBindings.Reads c s specifiers s') (hs : s.Sound text) :
    SpansBetween text s.previous.stop (specifiers.flatMap ImportSpecifier.copied) s'.previous.stop := by
  simp only [importBindings, reads_bind] at h
  obtain ⟨found, t, hfound, h⟩ := h
  have ht := (hfound.sound hc hs).1
  have hbinding := spansBetween_defaultBinding? hc hfound hs
  split at h
  · exact hbinding.append (spansBetween_importClause hc h ht)
  simp only [reads_bind] at h
  obtain ⟨_, u, hu, h⟩ := h
  obtain ⟨hu, htu⟩ := hu.sound hc ht
  split at h
  · obtain ⟨rfl, rfl, -⟩ := reads_pure.mp h
    exact hbinding.mono (Nat.le_refl _) htu
  simp only [reads_bind, reads_pure] at h
  obtain ⟨_, v, hv, others, w, hothers, rfl, rfl, -⟩ := h
  obtain ⟨hv, huv⟩ := hv.sound hc hu
  exact hbinding.append
    ((spansBetween_importClause hc hothers hv).mono (Nat.le_trans htu huv) (Nat.le_refl _))

/-! ## Attributes -/

theorem lt_of_reads_braced {item : Parser α} {found : List α × Option Nat}
    (h : (braced item).Reads c s found s') (hs : s.Sound text) :
    s.bumped.previous.stop < s'.previous.stop := by
  simp only [braced, reads_bind, reads_bump] at h
  obtain ⟨_, t, ⟨rfl, -⟩, h⟩ := h
  have hloop := exists_of_reads_loop
    (fun _ t => t.Sound text ∧ s.bumped.previous.stop ≤ t.previous.stop)
    h ⟨hs.bumped.1, Nat.le_refl _⟩ fun _ _ t t' hinv hround => by
      obtain ⟨ht, hle⟩ := hinv
      obtain ⟨ht', htt'⟩ := hround.sound hc ht
      exact ⟨ht', Nat.le_trans hle htt'⟩
  -- the last round is the one that eats the closing brace; the others throw or go on
  obtain ⟨⟨found', comma⟩, t, ⟨ht, hle⟩, hlast⟩ := hloop
  simp only [reads_bind] at hlast
  obtain ⟨closes, u, heat, hlast⟩ := hlast
  split at hlast
  · rename_i hcloses
    rw [hcloses] at heat
    obtain ⟨-, rfl, -⟩ := reads_pure.mp hlast
    exact Nat.lt_of_le_of_lt hle (lt_of_reads_eat hc (by decide) heat ht)
  · simp only [reads_bind] at hlast
    obtain ⟨_, v, -, _, w, -, hlast⟩ := hlast
    split at hlast
    · simp at hlast
    · simp at hlast

theorem spansBetween_objectLiteral {e : Expr} (h : (objectLiteral r).Reads c s e s')
    (hs : s.Sound text) : SpansBetween text s.previous.stop [e.span] s'.previous.stop := by
  simp only [objectLiteral, reads_bind] at h
  obtain ⟨start, t, hstart, ⟨props, comma⟩, u, hbraced, h⟩ := h
  obtain ⟨hgoes, hle, hstart'⟩ := goesOn_startPosition hc hstart hs
  have ht := (hstart.sound hc hs).1
  have hlt := lt_of_reads_braced hc hbraced ht
  obtain ⟨hsound, hend⟩ := h.sound hc (hbraced.sound hc ht).1
  have hspan : e.span = ⟨start, s'.previous.stop⟩ := by
    split at h
    · simp only [reads_bind, reads_spanFrom, reads_pure] at h
      obtain ⟨_, v, -, _, _, ⟨rfl, rfl, -⟩, rfl, rfl, -⟩ := h
      rfl
    · simp only [reads_bind, reads_spanFrom, reads_pure] at h
      obtain ⟨_, _, ⟨rfl, rfl, -⟩, rfl, rfl, -⟩ := h
      rfl
  have hpos : start < s'.previous.stop := Nat.lt_of_le_of_lt hstart' (Nat.lt_of_lt_of_le hlt hend)
  rw [hspan]
  exact .singleton hle hpos (Nat.le_refl _) ⟨hgoes.isBoundary, hsound.isBoundary⟩

theorem spansBetween_attributes? {attributes : Option Expr}
    (h : (attributes? r).Reads c s attributes s') (hs : s.Sound text) :
    SpansBetween text s.previous.stop (attributes.map (·.span)).toList s'.previous.stop := by
  simp only [attributes?, reads_bind] at h
  obtain ⟨_, t, ht, h⟩ := h
  obtain ⟨ht, hst⟩ := ht.sound hc hs
  split at h
  · obtain ⟨rfl, rfl, -⟩ := reads_pure.mp h
    exact .nil hst
  simp only [reads_bind] at h
  obtain ⟨_, u, hu, h⟩ := h
  obtain ⟨hu, htu⟩ := hu.sound hc ht
  split at h
  · obtain ⟨e, he, rfl⟩ := reads_map.mp h
    exact (spansBetween_objectLiteral hc he hu).mono (Nat.le_trans hst htu) (Nat.le_refl _)
  · obtain ⟨rfl, rfl, -⟩ := reads_pure.mp h
    exact .nil (Nat.le_trans hst htu)

/-! ## Declarations -/

variable {item : ModuleItem}

theorem importsBetween_importFrom {start : Nat} {specifiers : List ImportSpecifier}
    {ending : Parser Unit} (h : (importFrom r start specifiers ending).Reads c s item s')
    (hs : s.Sound text) (hkeyword : ∃ cs, Reaches text start cs ∧ cs.head? ≠ some ';')
    (hspecifiers :
      SpansBetween text start (specifiers.flatMap ImportSpecifier.copied) s.previous.stop) :
    ImportsBetween text start item.importDecl?.toList s'.previous.stop := by
  simp only [importFrom, reads_bind, reads_spanFrom, reads_pure] at h
  obtain ⟨source, t, hsource, attributes, u, hattributes, _, v, hending, _, _, ⟨rfl, rfl, -⟩, rfl,
    rfl, -⟩ := h
  have ht := (hsource.sound hc hs).1
  obtain ⟨hv, hle⟩ := hending.sound hc (hattributes.sound hc ht).1
  have hsource := spansBetween_moduleSpecifier hc hsource hs
  have hattributes := spansBetween_attributes? hc hattributes ht
  have hcopied := (hspecifiers.append (hsource.append hattributes)).mono (Nat.le_refl _) hle
  obtain ⟨cs, hcs, hne⟩ := hkeyword
  exact ImportsBetween.singleton (d := ⟨⟨start, _⟩, specifiers, source, attributes⟩)
    ⟨hcopied, cs, hcs, hne⟩ ⟨hcs.isBoundary, hv.isBoundary⟩

theorem importsBetween_importDeclaration {l : Lexeme} (h : (importDeclaration r).Reads c s item s')
    (hs : s.Sound text) (hl : s.current = some l) (himport : l.token.spells "import") :
    ImportsBetween text s.previous.stop item.importDecl?.toList s'.previous.stop := by
  simp only [importDeclaration, reads_bind] at h
  obtain ⟨start, t, hstart, _, u, hu, token, v, hv, h⟩ := h
  obtain ⟨-, hle, hstart'⟩ := goesOn_startPosition hc hstart hs
  have hkeyword : ∃ cs, Reaches text start cs ∧ cs.head? ≠ some ';' := by
    obtain ⟨⟨-, -, -, ⟨cs, hcs, htext⟩, -⟩, -⟩ := hs.taken hl
    rw [startPosition_of_current hl hstart]
    exact ⟨cs, hcs, head?_ne_of_spells himport htext⟩
  have ht := (hstart.sound hc hs).1
  obtain ⟨rfl, -⟩ := reads_bump.mp hu
  obtain ⟨hsound, huv⟩ := hv.sound hc ht.bumped.1
  have hbehind := Nat.le_trans hstart' huv
  split at h
  · exact (importsBetween_importFrom hc h hsound hkeyword (.nil hbehind)).mono hle (Nat.le_refl _)
  · simp only [reads_bind] at h
    obtain ⟨specifiers, w, hspecifiers, _, x, hx, h⟩ := h
    obtain ⟨hx, hwx⟩ := hx.sound hc (hspecifiers.sound hc hsound).1
    have hspecifiers := (spansBetween_importBindings hc hspecifiers hsound).mono hbehind hwx
    exact (importsBetween_importFrom hc h hx hkeyword hspecifiers).mono hle (Nat.le_refl _)

/-! ## Modules -/

theorem importsBetween_moduleItem (h : (moduleItem r).Reads c s item s') (hs : s.Sound text) :
    ImportsBetween text s.previous.stop item.importDecl?.toList s'.previous.stop := by
  have hle := (h.sound hc hs).2
  simp only [moduleItem, reads_bind] at h
  obtain ⟨_, t, ht, h⟩ := h
  obtain ⟨ht, hst⟩ := ht.sound hc hs
  split at h
  · simp only [exportDeclaration, reads_bind, reads_pure] at h
    obtain ⟨_, _, -, _, _, -, _, _, -, _, _, -, rfl, -⟩ := h
    exact .nil hle
  simp only [reads_bind] at h
  obtain ⟨_, u, hsees, h⟩ := h
  obtain ⟨hu, htu⟩ := hsees.sound hc ht
  split at h
  · rename_i himport
    rw [himport] at hsees
    obtain ⟨l, hl, himport⟩ := current_of_seesImportDeclaration hsees
    exact (importsBetween_importDeclaration hc h hu hl himport).mono (Nat.le_trans hst htu)
      (Nat.le_refl _)
  · simp only [reads_bind, reads_pure] at h
    obtain ⟨_, _, -, rfl, -⟩ := h
    exact .nil hle

theorem importsBetween_moduleItems {items : List ModuleItem}
    (h : (moduleItems r).Reads c s items s') (hs : s.Sound text) :
    ImportsBetween text s.previous.stop (items.filterMap ModuleItem.importDecl?) s'.previous.stop := by
  simp only [moduleItems, reads_bind] at h
  obtain ⟨_, t, ht, h⟩ := h
  obtain ⟨ht, hst⟩ := ht.sound hc hs
  refine inv_of_reads_many hc
    (fun items t =>
      ImportsBetween text s.previous.stop (items.filterMap ModuleItem.importDecl?) t.previous.stop)
    h ht (.nil hst) ?_ fun _ _ _ hfound hle => hfound.mono (Nat.le_refl _) hle
  intro found item t t' hfound ht hround
  simp only [reads_bind] at hround
  obtain ⟨_, u, hu, hround⟩ := hround
  obtain ⟨hu, htu⟩ := hu.sound hc ht
  split at hround
  · simp at hround
  · obtain ⟨_, hitem, heq⟩ := reads_map.mp hround
    cases heq
    have hsingle : [item].filterMap ModuleItem.importDecl? = item.importDecl?.toList := by
      cases item <;> rfl
    rw [List.filterMap_append, hsingle]
    exact (hfound.mono (Nat.le_refl _) htu).append (importsBetween_moduleItem hc hitem hu)

end

end Parser

/-! ## Texts -/

open Script.Parser

/-- The import declarations of a module that was read from a text follow one another in it. -/
theorem Module.importsBetween_of_ofText {text : String} {m : Module} (h : Module.ofText text = .ok m) :
    ImportsBetween text.toList 0 m.imports text.utf8ByteSize := by
  obtain ⟨s, h⟩ := exists_reads_of_runOn h
  have hc : (Context.start true (budget text)).inModule = true := rfl
  have hs := State.sound_start text
  have hsize := (h.sound hc hs).1.le_size
  rw [byteLength_toList] at hsize
  simp only [moduleText, reads_bind, reads_spanFrom, reads_pure] at h
  obtain ⟨_, t, ht, _, u, hu, items, v, hitems, _, _, ⟨rfl, rfl, -⟩, rfl, rfl, -⟩ := h
  have ht := (ht.sound hc hs).1
  have hu := (hu.sound hc ht).1
  rw [Module.imports_eq]
  exact (importsBetween_moduleItems hc hitems hu).mono (Nat.zero_le _) hsize

theorem Module.ordered_of_ofText {text : String} {m : Module} (h : Module.ofText text = .ok m) :
    m.Ordered text.utf8ByteSize where
  imports := (importsBetween_of_ofText h).imports.ascending
  copied d hd := ((importsBetween_of_ofText h).each d hd).copied.ascending

end NotebookCell.Script
