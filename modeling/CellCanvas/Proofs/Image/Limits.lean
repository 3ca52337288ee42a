import CellCanvas.Proofs.Image.Charges
import CellCanvas.Proofs.Image.Presentation

/-!
# Presentations under a limit

How a presentation depends on the limit of its buffer: a step that succeeds under a large limit
gives the same under a smaller one, as long as what is pending fits, and else it is refused for the
room; a step that fails under a large limit fails under a smaller one too. Every step of a
presentation is of this kind, since all it does with the buffer is to append to it.
-/

namespace CellCanvas

namespace Output

theorem append_eq (o : Output) (bytes : ByteArray) :
    o.append bytes = if bytes.size ≤ o.remaining then .ok (o.push bytes)
      else .error (.limit .output) := by
  simp only [append, admits, decide_eq_true_eq]

/-- A text is added whole, or nothing is and there is a failure: that of the text, or there is no
room for it. -/
def offer (o : Output) (text : Except Failure String) : Output × Option Failure :=
  match text >>= fun text => o.append text.toUTF8 with
  | .ok o' => (o', none)
  | .error e => (o, some e)

theorem offer_ok (o : Output) (text : String) :
    o.offer (.ok text) =
      if text.toUTF8.size ≤ o.remaining then (o.push text.toUTF8, none)
      else (o, some (.limit .output)) := by
  change (match o.append text.toUTF8 with | .ok o' => (o', none) | .error e => (o, some e)) = _
  rw [append_eq]
  split_ifs <;> rfl

/-- After a failure the buffer is as it was. -/
theorem offer_failed {o : Output} {text : Except Failure String} {e : Failure}
    (h : (o.offer text).2 = some e) : (o.offer text).1 = o := by
  unfold offer at h ⊢
  cases hresult : text >>= fun text => o.append text.toUTF8 with
  | error e => rfl
  | ok o' =>
    rw [hresult] at h
    cases h

theorem append_of_limit {o : Output} {room : Nat} (hroom : o.limit = some room)
    (hfits : o.pending.size ≤ room) (bytes : ByteArray) :
    o.append bytes = if o.pending.size + bytes.size ≤ room then .ok (o.push bytes)
      else .error (.limit .output) := by
  have hadmits : bytes.size ≤ o.remaining ↔ o.pending.size + bytes.size ≤ room := by
    simp only [remaining, hroom]
    omega
  simp only [append_eq, hadmits]

end Output

namespace Presentation

/-- The same presentation in a buffer with another limit. -/
def within (p : Presentation) (n : Nat) : Presentation :=
  { p with output := { p.output with limit := some n } }

/-- How the second result, under the limit `n`, follows from the first under a larger one. -/
inductive Narrows (n : Nat) : Except Failure Presentation → Except Failure Presentation → Prop
  | fits {p : Presentation} : p.output.pending.size ≤ n → Narrows n (.ok p) (.ok (p.within n))
  | exceeds {p : Presentation} :
      n < p.output.pending.size → Narrows n (.ok p) (.error (.limit .output))
  | fails (e : Failure) : Narrows n (.error e) (.error e)
  | cut (e : Failure) : Narrows n (.error e) (.error (.limit .output))

theorem Narrows.size_le {n : Nat} {p q : Presentation} (h : Narrows n (.ok p) (.ok q)) :
    p.output.pending.size ≤ n := by
  cases h with
  | fits hfits => exact hfits

/-- A step that only appends to the buffer, and otherwise does the same under every limit. -/
structure IsTransparent (step : Presentation → Except Failure Presentation) : Prop where
  grows : ∀ {p p' : Presentation}, step p = .ok p' →
    p'.output.limit = p.output.limit ∧ p.output.pending.size ≤ p'.output.pending.size
  narrows : ∀ {p : Presentation} {room n : Nat}, p.output.limit = some room → n ≤ room →
    p.output.pending.size ≤ n → Narrows n (step p) (step (p.within n))

namespace IsTransparent

variable {α : Type} {f g : Presentation → Except Failure Presentation}

theorem throw (e : Failure) : IsTransparent fun _ => .error e :=
  ⟨nofun, fun _ _ _ => .fails e⟩

/-- A change of what is recorded. -/
theorem record (cache : ImageCache → ImageCache) (stats : PresentStats → PresentStats) :
    IsTransparent fun p => .ok { p with cache := cache p.cache, stats := stats p.stats } := by
  constructor
  · intro p p' hok
    cases hok
    exact ⟨rfl, le_rfl⟩
  · intro p room n _ _ hfits
    exact .fits (p := { p with cache := cache p.cache, stats := stats p.stats }) hfits

theorem send (text : String) : IsTransparent fun p => p.send text := by
  constructor
  · intro p p' hok
    obtain ⟨output, happend, hok⟩ := exists_of_bind_eq_ok hok
    cases hok
    unfold Output.append at happend
    split_ifs at happend
    cases happend
    exact ⟨rfl, by simp [Output.push]⟩
  · intro p room n hroom hn hfits
    unfold Presentation.send
    rw [Output.append_of_limit hroom (by omega),
      Output.append_of_limit (o := (p.within n).output) rfl hfits]
    change Narrows n _ ((if p.output.pending.size + _ ≤ n then _ else _) >>= _)
    have hsize : (p.output.push text.toUTF8).pending.size =
        p.output.pending.size + text.toUTF8.size := by simp [Output.push]
    split_ifs with hwide hnarrow hnarrow
    · exact .fits (p := { p with output := p.output.push text.toUTF8 }) (hsize.trans_le hnarrow)
    · exact .exceeds (p := { p with output := p.output.push text.toUTF8 })
        (by rw [hsize]; omega)
    · omega
    · exact .fails _

theorem bind (hf : IsTransparent f) (hg : IsTransparent g) :
    IsTransparent fun p => f p >>= g := by
  constructor
  · intro p p'' hok
    obtain ⟨p', hp', hok⟩ := exists_of_bind_eq_ok hok
    obtain ⟨hlimit, hsize⟩ := hf.grows hp'
    obtain ⟨hlimit', hsize'⟩ := hg.grows hok
    exact ⟨hlimit'.trans hlimit, hsize.trans hsize'⟩
  · intro p room n hroom hn hfits
    have hnarrows := hf.narrows hroom hn hfits
    have hlimit : ∀ q, f p = .ok q → q.output.limit = some room :=
      fun _ hq => (hf.grows hq).1.trans hroom
    generalize f p = wide at hnarrows hlimit
    generalize f (p.within n) = narrow at hnarrows
    cases hnarrows with
    | @fits q hq => exact hg.narrows (hlimit q rfl) hn hq
    | @exceeds q hq =>
      change Narrows n (g q) (.error (.limit .output))
      cases hwide : g q with
      | error e => exact .cut e
      | ok q' => exact .exceeds (hq.trans_le (hg.grows hwide).2)
    | fails e => exact .fails e
    | cut e => exact .cut e

/-- What a step does may depend on the cache. -/
theorem byCache (h : ∀ cache, ∃ g, IsTransparent g ∧ ∀ p, p.cache = cache → f p = g p) :
    IsTransparent f := by
  constructor
  · intro p p' hok
    obtain ⟨g, hg, heq⟩ := h p.cache
    rw [heq p rfl] at hok
    exact hg.grows hok
  · intro p room n hroom hn hfits
    obtain ⟨g, hg, heq⟩ := h p.cache
    rw [heq p rfl, heq (p.within n) rfl]
    exact hg.narrows hroom hn hfits

theorem lift (x : Except Failure α) {g : α → Presentation → Except Failure Presentation}
    (h : ∀ a, IsTransparent (g a)) : IsTransparent fun p => x >>= fun a => g a p := by
  cases x with
  | error e => exact throw e
  | ok a => exact h a

theorem foldlM {step : Presentation → α → Except Failure Presentation}
    (h : ∀ a, IsTransparent fun p => step p a) (as : List α) :
    IsTransparent fun p => as.foldlM step p := by
  induction as with
  | nil => exact record id id
  | cons a as ih =>
    simp only [List.foldlM_cons]
    exact (h a).bind ih

end IsTransparent

theorem transparent_place (i : Nat) (c : ImageCommand) : IsTransparent fun p => p.place i c := by
  apply IsTransparent.byCache
  intro cache
  refine ⟨_, .lift (Kitty.place (cache.slot i).number c.column c.row c.columns c.rows c.z)
    fun text => (IsTransparent.send text).bind (.record (·.markPlaced i) id), ?_⟩
  rintro p rfl
  rfl

theorem transparent_evict (i : Nat) : IsTransparent fun p => p.evict i := by
  apply IsTransparent.byCache
  intro cache
  by_cases htransmitted : (cache.slot i).transmitted = true
  · refine ⟨_, .lift (Kitty.delete (cache.slot i).number) fun text =>
      (IsTransparent.send text).bind
        (.record id fun stats => { stats with deleted := stats.deleted + 1 }), ?_⟩
    rintro p rfl
    exact if_pos htransmitted
  · refine ⟨_, .record id id, ?_⟩
    rintro p rfl
    exact if_neg htransmitted

/-- The part of a transmission that follows when its slot is free. -/
theorem transparent_fill (i : Nat) (c : ImageCommand) (bytes : ByteArray) (hash : UInt64) :
    IsTransparent fun p => do
      let (cache, number) := p.cache.takeNumber
      let p := { p with cache := cache.setSlot i (slotFor number c hash) }
      let p ← p.send (← Kitty.transmit number bytes c.width c.height c.columns c.rows)
      let p ← p.place i c
      return { p with stats := { p.stats with transmitted := p.stats.transmitted + 1 } } := by
  apply IsTransparent.byCache
  intro cache
  have hfree := IsTransparent.record
    (fun _ => cache.takeNumber.1.setSlot i (slotFor cache.nextNumber c hash)) id
  refine ⟨_, .lift (Kitty.transmit cache.nextNumber bytes c.width c.height c.columns c.rows)
    fun text => hfree.bind ((IsTransparent.send text).bind ((transparent_place i c).bind
      (.record id fun stats => { stats with transmitted := stats.transmitted + 1 }))), ?_⟩
  rintro p rfl
  rfl

theorem transparent_transmit (c : ImageCommand) (bytes : ByteArray) (hash : UInt64) :
    IsTransparent fun p => p.transmit c bytes hash := by
  apply IsTransparent.byCache
  intro cache
  refine ⟨_, (IsTransparent.record (fun _ => cache.chooseSlot.1) id).bind
    ((transparent_evict cache.chooseSlot.2).bind
      (transparent_fill cache.chooseSlot.2 c bytes hash)), ?_⟩
  rintro p rfl
  rfl

theorem transparent_kitty (c : ImageCommand) (bytes : ByteArray) :
    IsTransparent fun p => p.kitty c bytes := by
  unfold kitty
  split_ifs
  · exact .throw _
  · apply IsTransparent.byCache
    intro cache
    cases hfind : cache.find? c.callerId (fingerprint bytes) c.width c.height with
    | some i =>
      refine ⟨_, (transparent_place i c).bind
        (.record id fun stats => { stats with reused := stats.reused + 1 }), ?_⟩
      rintro p rfl
      simp only [hfind]
      rfl
    | none =>
      refine ⟨_, transparent_transmit c bytes (fingerprint bytes), ?_⟩
      rintro p rfl
      simp only [hfind]

theorem transparent_dropUnplaced (i : Nat) : IsTransparent fun p => p.dropUnplaced i := by
  apply IsTransparent.byCache
  intro cache
  by_cases hunplaced : ((cache.slot i).transmitted && !(cache.slot i).placed) = true
  · refine ⟨_, (transparent_evict i).bind (.record (fun cache => cache.setSlot i {}) id), ?_⟩
    rintro p rfl
    exact if_pos hunplaced
  · refine ⟨_, .record id id, ?_⟩
    rintro p rfl
    exact if_neg hunplaced

end Presentation

end CellCanvas
