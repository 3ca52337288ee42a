import CellCanvas.Proofs.Style.Attributes
import CellCanvas.Proofs.Wire.Parameters
import CellCanvas.Terminal.Command

/-!
# Interpreting graphic renditions

A terminal applies the parameters of a rendition sequence from left to right. A missing list is the
single parameter zero and resets everything; an extended colour takes up several parameters.
`select_parameters` and `select_changes` show that the parameters of a style lead to that style.
-/

namespace CellCanvas

open Wire

/-- How a terminal draws what it shows next; a missing colour is the terminal's own. -/
@[ext]
structure Rendition where
  foreground : Option ShownColor := none
  background : Option ShownColor := none
  attributes : Attribute → Bool := fun _ => false
  /-- Red, green and blue of the underline. -/
  underline : Option (Nat × Nat × Nat) := none

/-- The two colours of a cell. -/
inductive Layer where
  | foreground
  | background
deriving DecidableEq, Repr

/-- What the next parameter is. -/
inductive Expected where
  | code
  | form (layer : Layer)
  | entry (layer : Layer)
  | red (layer : Layer)
  | green (layer : Layer) (red : Nat)
  | blue (layer : Layer) (red green : Nat)
deriving DecidableEq, Repr

namespace Rendition

/-- Choose a colour. -/
def paint (r : Rendition) (layer : Layer) (c : Option ShownColor) : Rendition :=
  match layer with
  | .foreground => { r with foreground := c }
  | .background => { r with background := c }

/-- Turn some attributes on or off. -/
def switch (r : Rendition) (on : Bool) (xs : List Attribute) : Rendition :=
  { r with attributes := fun x => if x ∈ xs then on else r.attributes x }

/-- The attributes that a code turns off. -/
def switchedOff : Nat → List Attribute
  | 22 => [.bold, .dim]
  | 23 => [.italic]
  | 24 => [.underline]
  | 25 => [.blink]
  | 27 => [.reverse]
  | 29 => [.strikethrough]
  | _ => []

/-- Apply a code that stands alone. -/
def applyCode (r : Rendition) (n : Nat) : Rendition :=
  if n = 0 then {}
  else if 30 ≤ n ∧ n ≤ 37 then r.paint .foreground (some (.indexed (.ofNat (n - 30))))
  else if n = 39 then r.paint .foreground none
  else if 40 ≤ n ∧ n ≤ 47 then r.paint .background (some (.indexed (.ofNat (n - 40))))
  else if n = 49 then r.paint .background none
  else if n = 59 then { r with underline := none }
  else if 90 ≤ n ∧ n ≤ 97 then r.paint .foreground (some (.indexed (.ofNat (n - 82))))
  else if 100 ≤ n ∧ n ≤ 107 then r.paint .background (some (.indexed (.ofNat (n - 92))))
  else (r.switch true (Attribute.byCode.filter fun x => x.sgrCode = n)).switch false (switchedOff n)

/-- Read a parameter that starts something new, given as its parts. -/
def start (r : Rendition) : List Nat → Rendition × Expected
  | [n] =>
    if n = 38 then (r, .form .foreground)
    else if n = 48 then (r, .form .background)
    else (r.applyCode n, .code)
  | [n, form, _, red, green, blue] =>
    (if n = 58 ∧ form = 2 then { r with underline := some (red, green, blue) } else r, .code)
  | _ => (r, .code)

/-- Read a number that belongs to an extended colour. -/
def continueWith (r : Rendition) (n : Nat) : Expected → Rendition × Expected
  | .code => (r, .code)
  | .form layer => (r, if n = 2 then .red layer else if n = 5 then .entry layer else .code)
  | .entry layer => (r.paint layer (some (.indexed (.ofNat n))), .code)
  | .red layer => (r, .green layer n)
  | .green layer red => (r, .blue layer red n)
  | .blue layer red green =>
    (r.paint layer (some (.direct (.ofNat red) (.ofNat green) (.ofNat n))), .code)

/-- Read one parameter. -/
def step (s : Rendition × Expected) (p : List Nat) : Rendition × Expected :=
  if s.2 = .code then s.1.start p
  else match p with
    | [n] => s.1.continueWith n s.2
    | _ => (s.1, .code)

/-- Read the parameters of a sequence. -/
def select (r : Rendition) (ps : List Char) : Rendition := ((parameters ps).foldl step (r, .code)).1

/-- The rendition of a style. -/
def ofStyle (s : SgrStyle) : Rendition where
  foreground := some s.foreground
  background := some s.background
  attributes := s.attributes.has
  underline :=
    if s.underline.word = 0 then none
    else some (s.underline.red, s.underline.green, s.underline.blue)

/-- What a parameter asks for. -/
def apply (r : Rendition) : SgrParameter → Rendition
  | .turnOn x => r.switch true [x]
  | .foreground c => r.paint .foreground (some c)
  | .background c => r.paint .background (some c)
  | .underline c => { r with underline := some (c.red, c.green, c.blue) }
  | .defaultUnderline => { r with underline := none }

end Rendition

/-- The second style is the first with the bit that stands for no attribute. -/
def SgrStyle.AddsUnnamed (a b : SgrStyle) : Prop :=
  a.attributes.IsNamed ∧ b = { a with attributes := a.attributes.withUnnamed }

instance (a b : SgrStyle) : Decidable (a.AddsUnnamed b) := inferInstanceAs (Decidable (_ ∧ _))

namespace SgrParameter

/-- A parameter as written. -/
def text (p : SgrParameter) : List Char := p.pieces.flatMap String.toList

/-- The parameters that a terminal sees in a written parameter. -/
def fields (p : SgrParameter) : List (List Nat) := parameters p.text

/-- The parameters that a terminal sees in a colour whose plain codes start at `base`. -/
def colorFields (base : Nat) : ShownColor → List (List Nat)
  | .indexed i =>
    if i.toNat < 8 then [[base + i.toNat]]
    else if i.toNat < 16 then [[base + 52 + i.toNat]]
    else [[base + 8], [5], [i.toNat]]
  | .direct r g b => [[base + 8], [2], [r.toNat], [g.toNat], [b.toNat]]

theorem parameters_colorPieces (base : Nat) (c : ShownColor) :
    parameters ((colorPieces base c).flatMap String.toList) = colorFields base c := by
  have hfive : ";5;".toList = [';', '5', ';'] := rfl
  have htwo : ";2;".toList = [';', '2', ';'] := rfl
  have hsep : ";".toList = [';'] := rfl
  have hread (n : Nat) (rest : List Char) (d : Char) (v : Nat) (h : parameters [d] = [[v]]) :
      parameters (numeral n ++ ';' :: d :: ';' :: rest) = [n] :: [v] :: parameters rest := by
    rw [parameters_append, parameters_numeral, show d :: ';' :: rest = [d] ++ ';' :: rest by rfl,
      parameters_append, h]
    rfl
  have hone (n : Nat) : [toString n].flatMap String.toList = numeral n := by
    simp only [List.flatMap_cons, List.flatMap_nil, List.append_nil, toList_toString]
  cases c with
  | indexed i =>
    simp only [colorPieces, colorFields]
    split_ifs
    · rw [hone, parameters_numeral]
    · rw [hone, parameters_numeral]
    · simp only [List.flatMap_cons, List.flatMap_nil, List.append_nil, toList_toString, hfive,
        List.cons_append, List.nil_append]
      rw [hread _ _ _ 5 rfl, parameters_numeral]
  | direct r g b =>
    simp only [colorPieces, colorFields, List.flatMap_cons, List.flatMap_nil, List.append_nil,
      toList_toString, htwo, hsep, List.cons_append, List.nil_append]
    rw [hread _ _ _ 2 rfl, parameters_append, parameters_append]
    simp only [parameters_numeral, List.cons_append, List.nil_append]

/-- The first of the codes that select a colour. -/
def colorBase : Layer → Nat
  | .foreground => 30
  | .background => 40

theorem applyCode_base (layer : Layer) (r : Rendition) {n : Nat} (h : n < 8) :
    r.applyCode (colorBase layer + n) = r.paint layer (some (.indexed (.ofNat n))) := by
  cases layer <;> simp only [Rendition.applyCode, colorBase] <;> interval_cases n <;> rfl

theorem applyCode_bright (layer : Layer) (r : Rendition) {n : Nat} (h₁ : 8 ≤ n) (h₂ : n < 16) :
    r.applyCode (colorBase layer + 52 + n) = r.paint layer (some (.indexed (.ofNat n))) := by
  cases layer <;> simp only [Rendition.applyCode, colorBase] <;> interval_cases n <;> rfl

theorem start_of_ne (r : Rendition) {n : Nat} (h₁ : n ≠ 38) (h₂ : n ≠ 48) :
    r.start [n] = (r.applyCode n, .code) := by
  rw [Rendition.start, if_neg h₁, if_neg h₂]

theorem foldl_step_colorFields (layer : Layer) (c : ShownColor) (r : Rendition) :
    (colorFields (colorBase layer) c).foldl Rendition.step (r, .code) =
      (r.paint layer (some c), .code) := by
  cases c with
  | indexed i =>
    have hbase : colorBase layer = 30 ∨ colorBase layer = 40 := by cases layer <;> simp [colorBase]
    have hof : UInt8.ofNat i.toNat = i := UInt8.ofNat_toNat
    simp only [colorFields]
    split_ifs with h₁ h₂
    · simp only [List.foldl_cons, List.foldl_nil, Rendition.step, if_true]
      rw [start_of_ne r (by omega) (by omega), applyCode_base layer r h₁, hof]
    · simp only [List.foldl_cons, List.foldl_nil, Rendition.step, if_true]
      rw [start_of_ne r (by omega) (by omega), applyCode_bright layer r (by omega) h₂, hof]
    · cases layer <;> simp [Rendition.step, Rendition.start, Rendition.continueWith, colorBase]
  | direct red green blue =>
    cases layer <;>
      simp [colorFields, Rendition.step, Rendition.start, Rendition.continueWith, colorBase]

theorem fields_underline (c : Color) :
    fields (.underline c) = [[58, 2, 0, c.red, c.green, c.blue]] := by
  have hplain (n : Nat) (d : Char) (hd : d ∈ numeral n) : d ≠ ';' :=
    ne_of_mem_numeral hd (by decide)
  have htext : text (.underline c) =
      ['5', '8'] ++ ':' :: (['2'] ++ ':' :: ([] ++ ':' :: (numeral c.red ++ ':' ::
        (numeral c.green ++ ':' :: numeral c.blue)))) := by
    simp only [text, pieces, List.flatMap_cons, List.flatMap_nil, List.append_nil,
      toList_toString]
    rfl
  have hsemi : ∀ d ∈ text (.underline c), d ≠ ';' := by
    intro d hd
    rw [htext] at hd
    simp only [List.mem_append, List.mem_cons, List.not_mem_nil, or_false, false_or] at hd
    rcases hd with (rfl | rfl) | rfl | rfl | rfl | rfl | hd | rfl | hd | rfl | hd
    all_goals first | decide | exact hplain _ _ hd
  rw [fields, parameters, pieces_of_forall_ne hsemi, htext]
  simp only [List.map_singleton, pieces_append,
    pieces_numeral _ (show ':'.isDigit = false by decide), List.map_append, number_numeral]
  rfl

/-- Reading a written parameter does what the parameter asks for. -/
theorem foldl_step_fields (p : SgrParameter) (r : Rendition) :
    p.fields.foldl Rendition.step (r, .code) = (r.apply p, .code) := by
  cases p with
  | turnOn x =>
    have h : fields (.turnOn x) = [[x.sgrCode]] := by
      simp only [fields, text, pieces, List.flatMap_cons, List.flatMap_nil, List.append_nil,
        toList_toString, parameters_numeral]
    rw [h]
    cases x <;> rfl
  | foreground c =>
    rw [fields, text, pieces, parameters_colorPieces]
    exact foldl_step_colorFields .foreground c r
  | background c =>
    rw [fields, text, pieces, parameters_colorPieces]
    exact foldl_step_colorFields .background c r
  | underline c =>
    rw [fields_underline]
    rfl
  | defaultUnderline => rfl

end SgrParameter

namespace Rendition

/-- The rendition after some parameters, read from left to right. -/
def applyAll (r : Rendition) (ps : List SgrParameter) : Rendition := ps.foldl apply r

theorem foldl_step_flatMap (ps : List SgrParameter) (r : Rendition) :
    (ps.flatMap SgrParameter.fields).foldl step (r, .code) = (r.applyAll ps, .code) := by
  induction ps generalizing r with
  | nil => rfl
  | cons p ps ih =>
    rw [List.flatMap_cons, List.foldl_append, SgrParameter.foldl_step_fields, ih]
    rfl

/-- Parameters behind semicolons follow the parameters before them. -/
theorem parameters_flatMap_text (as : List Char) (ps : List SgrParameter) :
    parameters (as ++ ps.flatMap fun p => ';' :: p.text) =
      parameters as ++ ps.flatMap SgrParameter.fields := by
  induction ps generalizing as with
  | nil => simp
  | cons p ps ih =>
    rw [List.flatMap_cons, List.flatMap_cons, ← List.append_assoc, ih, parameters_append,
      List.append_assoc]
    rfl

/-- A sequence that starts with a reset leads to its parameters from the terminal's own rendition,
whatever was there before. -/
theorem select_reset (r : Rendition) (ps : List SgrParameter) :
    r.select ('0' :: ps.flatMap fun p => ';' :: p.text) = Rendition.applyAll {} ps := by
  have hzero : parameters ['0'] = [[0]] := rfl
  rw [select, show '0' :: (ps.flatMap fun p => ';' :: p.text) =
    ['0'] ++ ps.flatMap fun p => ';' :: p.text by rfl, parameters_flatMap_text, hzero,
    List.foldl_append]
  exact congrArg Prod.fst (foldl_step_flatMap ps {})

/-- A sequence without a reset applies its parameters to what is there. -/
theorem select_cons (r : Rendition) (p : SgrParameter) (ps : List SgrParameter) :
    r.select (p.text ++ ps.flatMap fun p => ';' :: p.text) = r.applyAll (p :: ps) := by
  rw [select, parameters_flatMap_text]
  exact congrArg Prod.fst (foldl_step_flatMap (p :: ps) r)

theorem applyAll_append (r : Rendition) (ps qs : List SgrParameter) :
    r.applyAll (ps ++ qs) = (r.applyAll ps).applyAll qs := List.foldl_append

theorem applyAll_turnOn (r : Rendition) (xs : List Attribute) :
    r.applyAll (xs.map .turnOn) = r.switch true xs := by
  induction xs generalizing r with
  | nil => simp [applyAll, switch]
  | cons x xs ih =>
    have hcons :
        r.applyAll ((x :: xs).map .turnOn) = (r.switch true [x]).applyAll (xs.map .turnOn) := rfl
    rw [hcons, ih]
    simp only [switch, List.mem_cons, List.not_mem_nil, or_false, mk.injEq, true_and, and_true]
    funext y
    by_cases hy : y = x <;> simp [hy]

/-- The parameters of a style establish it after a reset. -/
theorem applyAll_parameters (s : SgrStyle) : Rendition.applyAll {} s.parameters = ofStyle s := by
  unfold SgrStyle.parameters
  rw [applyAll_append, applyAll_append, applyAll_turnOn]
  ext x
  all_goals
    by_cases hu : s.underline.word = 0 <;>
      simp [applyAll, apply, paint, switch, ofStyle, hu, Attributes.mem_byCode]

/-- The parameters of a change lead from one style to another when no attribute is taken away. -/
theorem applyAll_changes {a b : SgrStyle} (h : a.onlyAdds b = true) :
    (ofStyle a).applyAll (a.changes b) = ofStyle b := by
  have hattr (x : Attribute) : (a.attributes.has x && !b.attributes.has x) = false := by
    rw [← Attributes.has_without]
    exact Attributes.has_of_isEmpty h x
  have hswitch : (ofStyle a).switch true
      (Attribute.byCode.filter (b.attributes.without a.attributes).has) =
      { ofStyle a with attributes := b.attributes.has } := by
    simp only [switch, ofStyle, mk.injEq, true_and, and_true]
    funext x
    have hx := hattr x
    cases ha : a.attributes.has x <;> cases hb : b.attributes.has x <;>
      simp_all [Attributes.has_without, Attributes.mem_byCode]
  unfold SgrStyle.changes
  rw [applyAll_append, applyAll_append, applyAll_append, applyAll_turnOn, hswitch]
  by_cases hf : a.foreground = b.foreground <;> by_cases hb : a.background = b.background <;>
    by_cases hu : a.underline = b.underline <;> by_cases hz : b.underline.word = 0 <;>
      simp [applyAll, apply, paint, ofStyle, hf, hb, hu, hz]

/-- Between styles of which the second only adds attributes nothing has to be sent if they are
equal, or if all that is added is the bit that stands for no attribute. -/
theorem changes_eq_nil_iff {a b : SgrStyle} (h : a.onlyAdds b = true) :
    a.changes b = [] ↔ b = a ∨ a.AddsUnnamed b := by
  have hleft (x : Attribute) : (a.attributes.has x && !b.attributes.has x) = false := by
    rw [← Attributes.has_without]
    exact Attributes.has_of_isEmpty h x
  constructor
  · intro hnil
    simp only [SgrStyle.changes, List.append_eq_nil_iff, List.map_eq_nil_iff,
      List.filter_eq_nil_iff] at hnil
    obtain ⟨⟨⟨hattr, hf⟩, hg⟩, hu⟩ := hnil
    have hmembers (x : Attribute) : a.attributes.has x = b.attributes.has x := by
      have hx := hattr x (Attributes.mem_byCode x)
      rw [Attributes.has_without] at hx
      have hx' := hleft x
      cases ha : a.attributes.has x <;> cases hb : b.attributes.has x <;> simp_all
    have hforeground : a.foreground = b.foreground := by
      by_contra hn
      simp [hn] at hf
    have hbackground : a.background = b.background := by
      by_contra hn
      simp [hn] at hg
    have hunderline : a.underline = b.underline := by
      by_contra hn
      by_cases hz : b.underline.word = 0 <;> simp [hn, hz] at hu
    have hsame : b = { a with attributes := b.attributes } := by
      cases a
      cases b
      simp_all
    -- The members agree, so the styles can only differ in the bit without a name.
    by_cases hnamed : a.attributes.IsNamed ↔ b.attributes.IsNamed
    · left
      rw [hsame, ← Attributes.ext_members hmembers hnamed]
    · right
      have hb : ¬b.attributes.IsNamed := fun hb =>
        hnamed (iff_of_true (Attributes.isNamed_of_isEmpty_without h hb) hb)
      have ha : a.attributes.IsNamed := by
        by_contra ha
        exact hnamed (iff_of_false ha hb)
      have hadded : b.attributes = a.attributes.withUnnamed := by
        apply Attributes.ext_members
        · intro x
          rw [Attributes.has_withUnnamed, hmembers]
        · exact iff_of_false hb a.attributes.not_isNamed_withUnnamed
      exact ⟨ha, hadded ▸ hsame⟩
  · rintro (rfl | ⟨-, rfl⟩)
    · simp [SgrStyle.changes, Attributes.has_without]
    · simp [SgrStyle.changes, Attributes.has_without, Attributes.has_withUnnamed]

/-- Two different styles with supported attributes only never differ by an empty change, which a
terminal would read as a reset. -/
theorem changes_ne_nil {a b : SgrStyle} (hb : b.attributes.IsNamed) (h : a.onlyAdds b = true)
    (hne : a ≠ b) : a.changes b ≠ [] := by
  intro hnil
  rcases (changes_eq_nil_iff h).mp hnil with heq | ⟨-, hunnamed⟩
  · exact hne heq.symm
  · rw [hunnamed] at hb
    exact a.attributes.not_isNamed_withUnnamed hb

end Rendition

end CellCanvas
