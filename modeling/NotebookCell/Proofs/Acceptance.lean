import NotebookCell.Proofs.CellText

/-!
# Which cells are accepted

A cell that is a module without export declarations and `import.meta` is wrapped whatever it
imports, and no edit of it leaves the text. What can still be wrong with it is what a reader of
scripts finds in the wrapped text.
-/

namespace NotebookCell

open Script TaggedText

theorem ImportSite.exists_awaited (site : ImportSite) {m : Module} (h : unsupported? m = none) :
    ∃ r, site.awaited m = .ok r := by
  unfold ImportSite.awaited
  rw [h]
  exact ⟨_, rfl⟩

theorem ImportSite.exists_apply_ofCell {cell : String} {m : Module} (hu : unsupported? m = none)
    (hm : m.Ordered cell.utf8ByteSize) (file : Option String) (head importParam : String) :
    ∃ r draft, (ImportSite.ofCell cell file head importParam).apply m = .ok (r, draft) := by
  obtain ⟨r, hr⟩ := exists_awaited (ImportSite.ofCell cell file head importParam) hu
  have hedits : ∀ e ∈ r.edits, e.range.start < e.range.stop ∧
      e.range.stop ≤ (ImportSite.ofCell cell file head importParam).draft.size := by
    rw [ImportSite.edits_of_awaited hr, ImportSite.ofCell, Draft.size_ofText,
      byteSize_cellInWrapper]
    intro e he
    obtain ⟨d, hd, rfl⟩ := List.mem_map.mp he
    have hb := bounds_of_mem_ascending hm.imports (List.mem_map_of_mem hd)
    simp only [ImportSite.edit, Edit.range, Span.shift]
    omega
  obtain ⟨draft, hd⟩ := Draft.exists_applyAll_eq_ok hedits
  exact ⟨r, draft, ImportSite.apply_eq_ok.mpr ⟨hr, hd⟩⟩

namespace AwaitingCell

theorem exists_ofModule {o : Options} {cell : String} {m : Module} (hu : unsupported? m = none)
    (hm : m.Ordered cell.utf8ByteSize) : ∃ c, ofModule o cell m = .ok c := by
  let names := parameterNames o m.tree.names
  obtain ⟨r, draft, h⟩ :=
    ImportSite.exists_apply_ofCell hu hm o.file (wrapperHead names.1 names.2) names.2
  refine ⟨⟨names.1, names.2, r, draft.settle⟩, ?_⟩
  rw [ofModule, bind_eq_ok]
  exact ⟨(r, draft), h, rfl⟩

theorem exists_publish {c : AwaitingCell} {body : List Tree} (hf : ∀ t ∈ body, t.fits .statement)
    (hn : ∀ t ∈ body, t.nestedIn c.inside) : ∃ r, c.publish body = .ok r := by
  have hedits : ∀ e ∈ c.edits body, e.range.start < e.range.stop ∧ e.range.stop ≤ c.draft.size := by
    intro e he
    have hin := insertsIn_body c.globalParam hf hn e he
    exact ⟨hin.start_lt_stop, Nat.le_trans hin.stop_le (Nat.sub_le ..)⟩
  obtain ⟨draft, hd⟩ := Draft.exists_applyAll_eq_ok hedits
  exact ⟨_, publish_eq_ok.mpr ⟨draft, hd, rfl⟩⟩

end AwaitingCell

/-- A supported module becomes an asynchronous function if its wrapped text is read as one, and
fails as this reading does if not. -/
theorem AsyncCell.map_ofText_eq_map_statements {o : ValidOptions} {cell : String} {m : Module}
    (hm : Module.ofText cell = .ok m) (hu : unsupported? m = none)
    (ho : m.Ordered cell.utf8ByteSize)
    (hbody : ∀ c body, AwaitingCell.ofModule o.options cell m = .ok c → c.statements = .ok body →
      ∀ t ∈ body, t.fits .statement ∧ t.nestedIn c.inside) :
    ∃ c, AwaitingCell.ofModule o.options cell m = .ok c ∧
      (AsyncCell.ofText o cell).map (fun _ => ()) = c.statements.map fun _ => () := by
  obtain ⟨c, hc⟩ := AwaitingCell.exists_ofModule (o := o.options) hu ho
  refine ⟨c, hc, ?_⟩
  have he : AsyncCell.ofText o cell = c.statements >>= c.publish := by
    rw [AsyncCell.ofText, hm]
    show AwaitingCell.ofModule o.options cell m >>= (fun c => c.statements >>= c.publish) = _
    rw [hc]
    rfl
  rw [he]
  cases hs : c.statements with
  | error f => rfl
  | ok body =>
    have hb := hbody c body hc hs
    obtain ⟨r, hr⟩ := AwaitingCell.exists_publish (fun t ht => (hb t ht).1) fun t ht => (hb t ht).2
    show (c.publish body).map _ = _
    rw [hr]
    rfl

theorem AsyncCell.map_ofText_sampleCell : ∃ m c,
    AwaitingCell.ofModule sampleOptions.options sampleCell m = .ok c ∧
      (AsyncCell.ofText sampleOptions sampleCell).map (fun _ => ()) = c.statements.map fun _ => () := by
  obtain ⟨r, run, hq⟩ := @exists_cellRun sampleOptions sampleCell
    (fun m c body _ => readsWell sampleCell m c body && unsupported? m == none) (by decide +kernel)
  simp only [Bool.and_eq_true, beq_iff_eq] at hq
  obtain ⟨hread, hu⟩ := hq
  have h := run.wellRead_of_readsWell hread
  obtain ⟨c, hc, he⟩ := AsyncCell.map_ofText_eq_map_statements (o := sampleOptions) run.parsed_eq hu
    h.ordered fun c body hc hb => by
      rw [run.awaiting_eq] at hc
      cases hc
      rw [run.body_eq] at hb
      cases hb
      exact fun t ht => ⟨h.fits t ht, h.nested t ht⟩
  exact ⟨run.parsed, c, hc, he⟩

def hashbangCell : String := "#!x\n1"

/-- Behind the head of the wrapper no such line is read. -/
theorem AsyncCell.ofText_hashbangCell_ne_ok :
    ((Module.ofText hashbangCell).toOption.any fun m => unsupported? m == none) ∧
      ∀ r, AsyncCell.ofText sampleOptions hashbangCell ≠ .ok r := by
  have h : (AsyncCell.ofText sampleOptions hashbangCell).toBool = false := by decide +kernel
  refine ⟨by decide +kernel, fun r hr => ?_⟩
  rw [hr] at h
  cases h

end NotebookCell
