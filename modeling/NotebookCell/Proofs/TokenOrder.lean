import NotebookCell.Proofs.Readings
import NotebookCell.Script.Parser.State

/-!
# Tokens in order

Tokens are read from a text one behind the other. Each move of a parser keeps this as long as no
fault is noted, so that however a parser goes about it, it never takes a token that stands before
one that it has taken.
-/

namespace NotebookCell.Script

open Reading

/-! ## Positions -/

/-- Behind the first `n` bytes of the text comes `cs`. -/
structure Reaches (text : List Char) (n : Nat) (cs : List Char) : Prop where
  suffix : cs <:+ text
  total : n + byteLength cs = byteLength text

/-- A character of the text begins at the position, or the text ends there. -/
def IsBoundary (text : List Char) (n : Nat) : Prop := ∃ cs, Reaches text n cs

theorem Reaches.isBoundary {text cs : List Char} {n : Nat} (h : Reaches text n cs) :
    IsBoundary text n :=
  ⟨cs, h⟩

theorem Reaches.takes {α : Type} {text cs : List Char} {n : Nat} {r : Reading α}
    (h : Reaches text n cs) (hr : r.Takes cs n) : Reaches text r.position r.rest :=
  ⟨hr.suffix.trans h.suffix, hr.total.trans h.total⟩

theorem isBoundary_zero (text : List Char) : IsBoundary text 0 :=
  ⟨text, List.suffix_rfl, Nat.zero_add _⟩

/-! ## Cursors -/

/-- The cursor stands in the text. -/
structure Cursor.StandsIn (c : Cursor) (text : List Char) : Prop where
  reaches : Reaches text c.position c.rest
  /-- what is read as a regular expression goes on from where the cursor stands -/
  regex : ∀ cs slash, c.regex = some (cs, slash) → (scanRegex cs slash).Takes c.rest c.position

/-- The lexeme stands in the text between two positions and has the text of its token. -/
structure Lexeme.LiesIn (l : Lexeme) (text : List Char) (start stop : Nat) : Prop where
  start_le : start ≤ l.span.start
  le : l.span.start ≤ l.span.stop
  le_stop : l.span.stop ≤ stop
  token : ∃ cs, Reaches text l.span.start cs ∧ l.token.HasText cs (l.span.stop - l.span.start)
  isBoundary : IsBoundary text l.span.stop

theorem Lexeme.LiesIn.mono {l : Lexeme} {text : List Char} {start stop start' stop' : Nat}
    (h : l.LiesIn text start stop) (hstart : start' ≤ start) (hstop : stop ≤ stop') :
    l.LiesIn text start' stop' :=
  ⟨Nat.le_trans hstart h.start_le, h.le, Nat.le_trans h.le_stop hstop, h.token, h.isBoundary⟩

structure Scanned.Follows (r : Scanned) (c : Cursor) (text : List Char) : Prop where
  standsIn : r.cursor.StandsIn text
  le : c.position ≤ r.cursor.position
  lexeme : ∀ l, r.lexeme = some l → l.LiesIn text c.position r.cursor.position

section
variable {c : Cursor} {token : Token} {span : Span}

@[simp] theorem Cursor.behind_rest : (c.behind token span).rest = c.rest := by
  cases token <;> rfl

@[simp] theorem Cursor.behind_position : (c.behind token span).position = c.position := by
  cases token <;> rfl

@[simp] theorem Cursor.behind_regex : (c.behind token span).regex = c.regex := by
  cases token <;> rfl

end

section
variable {d : Dialect} {c : Cursor} {text : List Char} {start : Nat}

theorem follows_found {newline : Bool} {r : Reading (Option Token)} {cs : List Char}
    (hc : c.StandsIn text) (hr : r.Takes c.rest c.position)
    (hregex : ∀ cs slash, c.regex = some (cs, slash) → (scanRegex cs slash).Takes r.rest r.position)
    (hstart : c.position ≤ start ∧ start ≤ r.position) (hcs : Reaches text start cs)
    (htoken : ∀ token, r.result = some token → token.HasText cs (r.position - start)) :
    (c.found newline start r).Follows c text := by
  have hreaches := hc.reaches.takes hr
  unfold Cursor.found
  dsimp only
  split
  · exact ⟨⟨hreaches, hregex⟩, hr.le, fun _ h => nomatch h⟩
  · rename_i token hresult
    refine ⟨⟨by simpa using hreaches, by simpa using hregex⟩, by simpa using hr.le, ?_⟩
    rintro l ⟨⟩
    exact ⟨hstart.1, hstart.2, by simp, ⟨cs, hcs, htoken token hresult⟩, hreaches.isBoundary⟩

theorem found_faults (c : Cursor) (newline : Bool) (start : Nat) (r : Reading (Option Token)) :
    (c.found newline start r).faults = r.faults := by
  unfold Cursor.found
  dsimp only
  split
  · rfl
  · rfl

/-- Without a fault, the token behind a gap begins where the gap ends. -/
theorem follows_token {g : AfterGap} (hc : c.StandsIn text) (hregex : c.regex = none)
    (hg : g.reading.Takes c.rest c.position) (hstart : g.faults = [] → g.start = none)
    {r : Reading (Option Token)} (hr : r.ScansSome g.rest g.position)
    (h : (c.found g.newline (g.start.getD g.position)
      { r with faults := r.faults ++ g.faults }).faults = []) :
    (c.found g.newline (g.start.getD g.position) { r with faults := r.faults ++ g.faults }).Follows
      c text := by
  rw [found_faults, List.append_eq_nil_iff] at h
  rw [hstart h.2, Option.getD_none]
  have htakes := hr.toTakes.trans hg
  refine follows_found hc ⟨htakes.suffix, htakes.total⟩ ?_ ⟨hg.le, hr.le⟩ (hc.reaches.takes hg)
    hr.text
  intro cs slash hsome
  rw [hregex] at hsome
  cases hsome

theorem follows_scan (hd : d.inModule = true) (hc : c.StandsIn text) :
    (scan d c).faults = [] → (scan d c).Follows c text := by
  unfold scan
  dsimp only
  split
  · rename_i cs slash hregex
    intro _
    -- the expression starts at its slash, and goes on from where the cursor stands
    have htakes := hc.regex cs slash hregex
    refine follows_found hc ⟨htakes.suffix, htakes.total⟩ ?_ ⟨Nat.le_refl _, htakes.le⟩
      hc.reaches ?_
    · intro cs' slash' hregex'
      rw [hregex] at hregex'
      cases hregex'
      exact ⟨List.suffix_rfl, rfl⟩
    · rintro token ⟨⟩
      exact hasText_scanRegex cs _ slash _
  rename_i hregex
  have hnone : ∀ (r : Reading (Option Token)) cs slash, c.regex = some (cs, slash) →
      (scanRegex cs slash).Takes r.rest r.position := fun r cs slash h => by
    rw [hregex] at h
    cases h
  split
  · rename_i hbang
    intro _
    have hzero : c.position = 0 := of_decide_eq_true (Bool.and_eq_true_iff.mp hbang).1
    have htakes := takes_scanHashbang c.rest
    refine follows_found hc ?_ (hnone _) ?_ (hzero ▸ hc.reaches) ?_
    · rw [hzero]
      exact ⟨htakes.suffix, htakes.total⟩
    · rw [hzero]
      exact ⟨Nat.le_refl _, Nat.zero_le _⟩
    · rintro token ⟨⟩
      trivial
  split
  -- in a template nothing is a gap
  · intro _
    have hscans := (scans_scanTemplate d.strict c.afterTemplateText c.templateStart c.rest
      c.position).whole
    exact follows_found hc hscans.toTakes (hnone _) ⟨Nat.le_refl _, hscans.le⟩ hc.reaches hscans.text
  · intro h
    rw [hd] at h ⊢
    have hg := takes_skipGap true .blank c.rest c.position (decide (c.position = 0)) none [] []
    exact follows_token hc hregex hg (fun hfaults => (start_skipGap _ _ _ _ _ _ _ hfaults).1)
      (scansSome_scanToken d _ _ _) h

end

/-! ## Lexemes in order -/

/-- The lexemes stand between two positions, each behind the one before. -/
def InOrder (text : List Char) : (start : Nat) → List Lexeme → (stop : Nat) → Prop
  | start, [], stop => start ≤ stop
  | start, l :: ls, stop => l.LiesIn text start stop ∧ InOrder text l.span.stop ls stop

section
variable {text : List Char} {start middle stop : Nat} {l : Lexeme} {ls : List Lexeme}

theorem InOrder.le (h : InOrder text start ls stop) : start ≤ stop := by
  induction ls generalizing start with
  | nil => exact h
  | cons l ls ih => exact Nat.le_trans (Nat.le_trans h.1.start_le h.1.le) (ih h.2)

theorem InOrder.extend (h : InOrder text start ls middle) (hle : middle ≤ stop) :
    InOrder text start ls stop := by
  induction ls generalizing start with
  | nil => exact Nat.le_trans h hle
  | cons l ls ih => exact ⟨h.1.mono (Nat.le_refl _) hle, ih h.2⟩

theorem InOrder.concat (h : InOrder text start ls middle) (hl : l.LiesIn text middle stop) :
    InOrder text start (ls ++ [l]) stop := by
  induction ls generalizing start with
  | nil => exact ⟨hl.mono h (Nat.le_refl _), hl.le_stop⟩
  | cons k ls ih =>
    have hle : middle ≤ stop := Nat.le_trans (Nat.le_trans hl.start_le hl.le) hl.le_stop
    exact ⟨h.1.mono (Nat.le_refl _) hle, ih h.2⟩

end

/-! ## States -/

namespace State

/-- The tokens that have been read and not been taken. -/
def ahead (s : State) : List Lexeme := s.current.toList ++ s.next.toList

/-- The tokens to come stand in the text from a position on. -/
structure GoesOn (s : State) (start : Nat) (text : List Char) : Prop where
  cursor : s.cursor.StandsIn text
  isBoundary : IsBoundary text start
  ahead : InOrder text start s.ahead s.cursor.position

/-- The tokens to come stand behind those that were taken. -/
def Sound (s : State) (text : List Char) : Prop := s.GoesOn s.previous.stop text

section
variable {s : State} {d : Dialect} {start : Nat} {text : List Char}

theorem Sound.le_size (h : s.Sound text) : s.previous.stop ≤ byteLength text := by
  have := h.ahead.le
  have := h.cursor.reaches.total
  omega

@[simp] theorem withCurrent_previous : (s.withCurrent d).previous = s.previous := by
  unfold withCurrent
  split <;> rfl

@[simp] theorem withNext_previous : (s.withNext d).previous = s.previous := by
  unfold withNext
  split <;> rfl

@[simp] theorem withNext_current : (s.withNext d).current = s.current := by
  unfold withNext
  split <;> rfl

theorem withCurrent_of_current {l : Lexeme} (h : s.current = some l) : s.withCurrent d = s := by
  unfold withCurrent
  rw [h]

theorem GoesOn.scan (h : s.GoesOn start text) (hd : d.inModule = true)
    (hfaults : (scan d s.cursor).faults = []) {ls : List Lexeme}
    (hls : ls = s.ahead ++ (Script.scan d s.cursor).lexeme.toList) :
    (Script.scan d s.cursor).cursor.StandsIn text ∧
      InOrder text start ls (Script.scan d s.cursor).cursor.position := by
  obtain ⟨hcursor, hle, hlexeme⟩ := follows_scan hd h.cursor hfaults
  refine ⟨hcursor, ?_⟩
  rw [hls]
  cases hl : (Script.scan d s.cursor).lexeme with
  | none => simpa using h.ahead.extend hle
  | some l => exact h.ahead.concat (hlexeme l hl)

theorem GoesOn.withCurrent (h : s.GoesOn start text) (hd : d.inModule = true)
    (hfaults : (s.withCurrent d).faults = []) : (s.withCurrent d).GoesOn start text := by
  unfold State.withCurrent at hfaults ⊢
  split
  · exact h
  · rename_i lexeme hcurrent hnext
    refine ⟨h.cursor, h.isBoundary, ?_⟩
    have := h.ahead
    simpa [State.ahead, hcurrent, hnext] using this
  · rename_i hcurrent hnext
    rw [hcurrent, hnext] at hfaults
    obtain ⟨hcursor, hahead⟩ := h.scan hd (List.append_eq_nil_iff.mp hfaults).1 rfl
    refine ⟨hcursor, h.isBoundary, ?_⟩
    simpa [State.ahead, hcurrent, hnext] using hahead

theorem GoesOn.withNext (h : s.GoesOn start text) (hd : d.inModule = true)
    (hfaults : (s.withNext d).faults = []) : (s.withNext d).GoesOn start text := by
  unfold State.withNext at hfaults ⊢
  split
  · exact h
  · rename_i hnext
    rw [hnext] at hfaults
    obtain ⟨hcursor, hahead⟩ := h.scan hd (List.append_eq_nil_iff.mp hfaults).1 rfl
    refine ⟨hcursor, h.isBoundary, ?_⟩
    simpa [State.ahead, hnext] using hahead

/-- The current token stands from the position on, and taking it makes it the last one taken. -/
theorem GoesOn.taken {l : Lexeme} (h : s.GoesOn start text) (hl : s.current = some l) :
    l.LiesIn text start s.cursor.position ∧ s.bumped.previous = l.span := by
  have hahead := h.ahead
  simp only [State.ahead, hl, Option.toList_some, List.singleton_append] at hahead
  refine ⟨hahead.1, ?_⟩
  unfold State.bumped
  rw [hl]

theorem GoesOn.from_current {l : Lexeme} (h : s.GoesOn start text) (hl : s.current = some l) :
    s.GoesOn l.span.start text := by
  have hahead := h.ahead
  simp only [State.ahead, hl, Option.toList_some, List.singleton_append] at hahead
  obtain ⟨cs, hcs, -⟩ := hahead.1.token
  refine ⟨h.cursor, hcs.isBoundary, ?_⟩
  simp only [State.ahead, hl, Option.toList_some, List.singleton_append]
  exact ⟨⟨Nat.le_refl _, hahead.1.le, hahead.1.le_stop, hahead.1.token, hahead.1.isBoundary⟩,
    hahead.2⟩

theorem Sound.bumped (h : s.Sound text) :
    s.bumped.Sound text ∧ s.previous.stop ≤ s.bumped.previous.stop := by
  obtain ⟨hcursor, hboundary, hahead⟩ := h
  unfold State.bumped
  split
  · rename_i lexeme hcurrent
    simp only [ahead, hcurrent, Option.toList_some, List.singleton_append] at hahead
    refine ⟨⟨hcursor, hahead.1.isBoundary, ?_⟩, Nat.le_trans hahead.1.start_le hahead.1.le⟩
    simpa [ahead] using hahead.2
  · rename_i lexeme hcurrent hnext
    simp only [ahead, hcurrent, hnext, Option.toList_none, Option.toList_some,
      List.nil_append] at hahead
    refine ⟨⟨hcursor, hahead.1.isBoundary, ?_⟩, Nat.le_trans hahead.1.start_le hahead.1.le⟩
    simpa [State.ahead, hcurrent] using hahead.2
  · exact ⟨⟨hcursor, hboundary, hahead⟩, Nat.le_refl _⟩

@[simp] theorem bumped_cursor : s.bumped.cursor = s.cursor := by
  unfold bumped
  split <;> rfl

@[simp] theorem withRegex_faults {slash : Span} {text : List Char} :
    (s.withRegex slash text).faults = s.faults := by
  unfold withRegex
  split <;> rfl

/-- What is read as a regular expression goes on from behind the slash. -/
theorem Sound.withRegex (h : s.Sound text) (slash : Span) (body : List Char)
    (hsuffix : regexRest body false false <:+ s.cursor.rest)
    (htotal : slash.start + 1 + byteLength body = slash.stop + byteLength s.cursor.rest) :
    (s.withRegex slash body).Sound text ∧ (s.withRegex slash body).previous = s.previous := by
  unfold State.withRegex
  split
  · rename_i hposition
    refine ⟨⟨⟨h.cursor.reaches, ?_⟩, h.isBoundary, h.ahead⟩, rfl⟩
    rintro _ _ ⟨⟩
    exact takes_scanRegex hsuffix (by rwa [hposition])
  · exact ⟨h, rfl⟩

theorem Sound.withSlashTaken (h : s.Sound text) :
    s.withSlashTaken.Sound text ∧ s.previous.stop ≤ s.withSlashTaken.previous.stop := by
  obtain ⟨hsound, hle⟩ := h.bumped
  unfold State.withSlashTaken
  split
  · rename_i span newline hslash
    obtain ⟨⟨-, hspan, -, ⟨cs, -, hlength, -⟩, -⟩, -⟩ := GoesOn.taken h hslash
    have hlength : span.stop - span.start = 1 := hlength
    dsimp only at hspan
    obtain ⟨hregex, hprevious⟩ := hsound.withRegex span s.cursor.rest
      (by simpa using regexRest_suffix _ _ _) (by rw [bumped_cursor]; omega)
    exact ⟨hregex, by rwa [hprevious]⟩
  · rename_i span newline hslash
    obtain ⟨⟨-, hspan, -, ⟨cs, -, hlength, -⟩, -⟩, -⟩ := GoesOn.taken h hslash
    have hlength : span.stop - span.start = 2 := hlength
    dsimp only at hspan
    -- the `=` was taken with the slash and is the first character of the expression
    obtain ⟨hregex, hprevious⟩ := hsound.withRegex span ('=' :: s.cursor.rest)
      (by simpa [regexRest_equals] using regexRest_suffix _ _ _)
      (by rw [bumped_cursor, byteLength_cons, utf8Size_of_lt (c := '=') (by decide)]; omega)
    exact ⟨hregex, by rwa [hprevious]⟩
  · exact ⟨hsound, hle⟩

end

end State

/-! ## Moves -/

section
variable {inModule : Bool} {s s' : State} {text : List Char}

theorem Move.faults_eq_nil (h : Move inModule s s') (hfaults : s'.faults = []) : s.faults = [] :=
  Classical.not_not.mp fun hs => h.faults_ne_nil hs hfaults

/-- Each move of a parser of a module that notes no fault keeps the tokens in order. -/
theorem Move.sound (h : Move true s s') (hfaults : s'.faults = []) (hs : s.Sound text) :
    s'.Sound text ∧ s.previous.stop ≤ s'.previous.stop := by
  cases h with
  | current d hd =>
    rw [State.Sound, State.withCurrent_previous]
    exact ⟨hs.withCurrent hd hfaults, Nat.le_refl _⟩
  | next d hd =>
    rw [State.Sound, State.withNext_previous]
    exact ⟨hs.withNext hd hfaults, Nat.le_refl _⟩
  | bump => exact hs.bumped
  | slash => exact hs.withSlashTaken
  | regexEnd =>
    exact ⟨⟨⟨hs.cursor.reaches, fun _ _ h => nomatch h⟩, hs.isBoundary, hs.ahead⟩, Nat.le_refl _⟩
  | faultToken =>
    unfold State.withFaultToken
    split
    · exact hs.bumped
    · exact ⟨hs, Nat.le_refl _⟩
  | fault f => cases hfaults
  | arrowStart start => exact ⟨⟨hs.cursor, hs.isBoundary, hs.ahead⟩, Nat.le_refl _⟩
  | trailingComma start position => exact ⟨⟨hs.cursor, hs.isBoundary, hs.ahead⟩, Nat.le_refl _⟩

theorem Moves.faults_eq_nil (h : Moves inModule s s') (hfaults : s'.faults = []) : s.faults = [] := by
  induction h with
  | none => exact hfaults
  | more _ hlast ih => exact ih (hlast.faults_eq_nil hfaults)

/-- However a parser of a module goes about it, it takes tokens in the order of the text. -/
theorem Moves.sound (h : Moves true s s') (hfaults : s'.faults = []) (hs : s.Sound text) :
    s'.Sound text ∧ s.previous.stop ≤ s'.previous.stop := by
  induction h with
  | none => exact ⟨hs, Nat.le_refl _⟩
  | more _ hlast ih =>
    obtain ⟨hs', hle⟩ := ih (hlast.faults_eq_nil hfaults)
    obtain ⟨hs'', hle'⟩ := hlast.sound hfaults hs'
    exact ⟨hs'', Nat.le_trans hle hle'⟩

end

end NotebookCell.Script
