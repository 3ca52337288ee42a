import CellCanvas.Paint.Painter
import Mathlib.Tactic

/-!
# Controls stand alone

A control is a cluster of its own, but for a carriage return with the line feed after it. Neither is
wider than one column, so a cluster of two columns never holds a control. This is all that painting
asks of a segmentation.
-/

namespace CellCanvas.Text.Cluster

/-- Characters between which a text is split, but for the two of a line break. -/
def Edge.Breaks (e : Edge) : Prop := e = .carriageReturn ∨ e = .lineFeed ∨ e = .control

instance (e : Edge) : Decidable e.Breaks := inferInstanceAs (Decidable (_ ∨ _ ∨ _))

theorem lt_of_isControl {c : Char} (h : isControl c = true) : c.toNat < 160 := by
  simp only [isControl, Bool.or_eq_true, Bool.and_eq_true, decide_eq_true_eq] at h
  omega

theorem breaks_of_isControl {c : Char} (h : isControl c = true) : (edge c).Breaks := by
  have hedges : ∀ n < 160, isControl (Char.ofNat n) = true → (edge (Char.ofNat n)).Breaks := by
    decide +kernel
  have hc := hedges c.toNat (lt_of_isControl h)
  rw [Char.ofNat_toNat] at hc
  exact hc h

theorem Edge.ite_ne {e e₁ e₂ : Edge} {q : Prop} [Decidable q] (h₁ : e₁ ≠ e) (h₂ : e₂ ≠ e) :
    (if q then e₁ else e₂) ≠ e := by
  split
  · exact h₁
  · exact h₂

theorem eq_of_edge_carriageReturn {c : Char} (h : edge c = .carriageReturn) : c = '\r' := by
  apply Char.toNat_inj.mp
  by_contra hne
  rw [edge, if_neg (show ¬c.toNat = 0xD from hne)] at h
  revert h
  repeat' apply Edge.ite_ne
  all_goals decide

theorem eq_of_edge_lineFeed {c : Char} (h : edge c = .lineFeed) : c = '\n' := by
  apply Char.toNat_inj.mp
  by_contra hne
  rw [edge, if_neg (show ¬c.toNat = 0xA from hne)] at h
  revert h
  repeat' apply Edge.ite_ne
  all_goals decide

/-- Next to a break only the two characters of a line break stay together. -/
theorem holds_of_breaks {t : Trail} {c : Char} (h : t.last.Breaks ∨ (edge c).Breaks)
    (hholds : t.holds c = true) : t.last = .carriageReturn ∧ edge c = .lineFeed := by
  unfold Trail.holds at hholds
  unfold Edge.Breaks at h
  generalize edge c = e at h hholds ⊢
  generalize t.last = l at h hholds ⊢
  rcases h with (rfl | rfl | rfl) | (rfl | rfl | rfl)
  · cases e <;> simp_all
  · cases e <;> simp_all
  · cases e <;> simp_all
  · cases l <;> simp_all
  · cases l <;> simp_all
  · cases l <;> simp_all

/-- A cluster in the making, last character first, in which controls stand alone. -/
structure Isolates (t : Trail) (current : List Char) : Prop where
  last : ∃ c before, current = c :: before ∧ t.last = edge c
  alone : ∀ d ∈ current, isControl d = true → current = [d] ∨ current = ['\n', '\r']

theorem Isolates.single (before : Option Trail) (c : Char) : Isolates (.next before c) [c] :=
  ⟨⟨c, [], rfl, rfl⟩, fun _ hd _ => .inl (by rw [List.mem_singleton.mp hd])⟩

theorem Isolates.next {t : Trail} {current : List Char} {c : Char} (h : Isolates t current)
    (hholds : t.holds c = true) : Isolates (.next (some t) c) (c :: current) := by
  refine ⟨⟨c, current, rfl, rfl⟩, ?_⟩
  obtain ⟨l, before, rfl, hlast⟩ := h.last
  -- All that can follow a control, or be one that follows, is the end of a line break.
  have hline (hbreaks : (edge l).Breaks ∨ (edge c).Breaks) : c :: l :: before = ['\n', '\r'] := by
    obtain ⟨hreturn, hfeed⟩ := holds_of_breaks (hlast ▸ hbreaks) hholds
    obtain rfl := eq_of_edge_carriageReturn (hlast ▸ hreturn)
    obtain rfl := eq_of_edge_lineFeed hfeed
    rcases h.alone '\r' List.mem_cons_self (by decide) with hone | htwo
    · rw [hone]
    · cases htwo
  intro d hd hcontrol
  right
  rcases List.mem_cons.mp hd with rfl | hd
  · exact hline (.inr (breaks_of_isControl hcontrol))
  · rcases h.alone d hd hcontrol with hone | htwo
    · cases hone
      exact hline (.inl (breaks_of_isControl hcontrol))
    · cases htwo
      exact hline (.inl (by decide +kernel))

theorem controls_of_mem_split {t : Trail} {current rest cluster : List Char}
    (h : Isolates t current) (hmem : cluster ∈ split t current rest) {d : Char} (hd : d ∈ cluster)
    (hcontrol : isControl d = true) : cluster = [d] ∨ cluster = ['\r', '\n'] := by
  have hreversed {current : List Char} {t : Trail} (h : Isolates t current)
      (hd : d ∈ current.reverse) :
      current.reverse = [d] ∨ current.reverse = ['\r', '\n'] := by
    rcases h.alone d (List.mem_reverse.mp hd) hcontrol with hone | htwo
    · exact .inl (by rw [hone]; rfl)
    · exact .inr (by rw [htwo]; rfl)
  induction rest generalizing t current with
  | nil =>
    rw [split, List.mem_singleton] at hmem
    subst hmem
    exact hreversed h hd
  | cons c rest ih =>
    rw [split] at hmem
    split_ifs at hmem with hholds
    · exact ih (h.next hholds) hmem
    · rcases List.mem_cons.mp hmem with rfl | hmem
      · exact hreversed h hd
      · exact ih (.single none c) hmem

/-- A control is alone in its cluster, or the cluster is a line break. -/
theorem controls_of_mem_clusters {text cluster : List Char} (hmem : cluster ∈ clusters text)
    {d : Char} (hd : d ∈ cluster) (hcontrol : isControl d = true) :
    cluster = [d] ∨ cluster = ['\r', '\n'] := by
  cases text with
  | nil => cases hmem
  | cons c rest => exact controls_of_mem_split (.single none c) hmem hd hcontrol

/-- A cluster with a control takes one column at most. -/
theorem columns_le_one {text cluster : List Char} (hmem : cluster ∈ clusters text) {d : Char}
    (hd : d ∈ cluster) (hcontrol : isControl d = true) : Columns.columns cluster ≤ 1 := by
  rcases controls_of_mem_clusters hmem hd hcontrol with rfl | rfl
  · have hle : (Columns.alone d).1 ≤ 1 := by
      have := lt_of_isControl hcontrol
      unfold Columns.alone
      dsimp only
      rw [if_pos (show d.toNat ≤ 0xA0 by omega)]
      split_ifs <;> decide
    simp only [Columns.columns, Columns.measure, List.foldr_cons, List.foldr_nil,
      Columns.contribution]
    omega
  · decide +kernel

theorem ne_nil_of_mem_split {t : Trail} {current rest cluster : List Char} (h : current ≠ [])
    (hmem : cluster ∈ split t current rest) : cluster ≠ [] := by
  have hreversed : current.reverse ≠ [] := by simpa using h
  induction rest generalizing t current with
  | nil =>
    rw [split, List.mem_singleton] at hmem
    exact hmem ▸ hreversed
  | cons c rest ih =>
    rw [split] at hmem
    split_ifs at hmem with hholds
    · exact ih (List.cons_ne_nil c current) hmem (by simp)
    · rcases List.mem_cons.mp hmem with rfl | hmem
      · exact hreversed
      · exact ih (List.cons_ne_nil c []) hmem (by simp)

theorem ne_nil_of_mem_clusters {text cluster : List Char} (hmem : cluster ∈ clusters text) :
    cluster ≠ [] := by
  cases text with
  | nil => cases hmem
  | cons c rest => exact ne_nil_of_mem_split (List.cons_ne_nil c []) hmem

end CellCanvas.Text.Cluster

namespace CellCanvas

/-- A segmentation that follows the rules of Unicode: no cluster is empty, a control stands alone,
and so a cluster with one takes no second column. -/
structure Segmentation.IsStandard (split : Segmentation) : Prop where
  ne_empty : ∀ text, ∀ c ∈ split text, c.text ≠ ""
  columns_le_one : ∀ text, ∀ c ∈ split text, isSafeText c.text = false → c.columns ≤ 1

theorem Cluster.isStandard_ofText : Segmentation.IsStandard ofText where
  ne_empty := by
    intro text c hc
    obtain ⟨cluster, hcluster, rfl⟩ := List.mem_map.mp hc
    exact fun hempty => Text.Cluster.ne_nil_of_mem_clusters hcluster (String.ofList_inj.mp hempty)
  columns_le_one := by
    intro text c hc hunsafe
    obtain ⟨cluster, hcluster, rfl⟩ := List.mem_map.mp hc
    obtain ⟨d, hd, hcontrol⟩ : ∃ d ∈ cluster, isControl d = true := by
      simpa [isSafeText] using hunsafe
    exact Text.Cluster.columns_le_one hcluster hd hcontrol

end CellCanvas
