import CellCanvas.Proofs.Output.Pieces

/-!
# Writing step by step

Commands as programs that write to any sink: literals and numbers one by one, as loops and
conditions come to them, until one is refused. The separator of parameters is a state. On every sink
this is the same as writing the pieces of the command in order, and in a buffer it is what
`Output.write` does.
-/

namespace CellCanvas

/-- Work that writes to a sink. What the sink has taken stays with it when the work fails. -/
abbrev Writing := ReaderT Sink (ExceptT IoFailure (StateM ByteArray))

namespace Writing

/-- Offer a text until the sink has all of it. -/
def write (text : String) : Writing Unit := fun k taken =>
  match k.writeAll taken text.toUTF8 with
  | (after, none) => (.ok (), after)
  | (after, some e) => (.error e, after)

/-- Write the literals and the arguments of a format one by one. -/
def format (parts : List String) : Writing Unit := forM parts write

/-- The parameters of a colour whose plain codes start at `base`. -/
def color (c : ShownColor) (base : UInt8) : Writing Unit :=
  match c with
  | .indexed i =>
    if i < 8 then format [toString (base.toUInt16 + i.toUInt16)]
    else if i < 16 then format [toString (base.toUInt16 + 52 + i.toUInt16)]
    else format [toString (base.toUInt16 + 8), ";5;", toString i]
  | .direct r g b =>
    format [toString (base.toUInt16 + 8), ";2;", toString r, ";", toString g, ";", toString b]

/-- The parameter of an underline colour. -/
def underlineColor (c : Color) : Writing Unit :=
  format ["58:2::", toString (c.word >>> 16).toUInt8, ":", toString (c.word >>> 8).toUInt8, ":",
    toString c.word.toUInt8]

/-- Establish a style from scratch. -/
def establish (s : SgrStyle) : Writing Unit := do
  write "\x1b[0"
  forM Attribute.byCode fun x =>
    if s.attributes.has x then format [";", toString x.sgrCode] else pure ()
  write ";"
  color s.foreground 30
  write ";"
  color s.background 40
  if s.underline.word ≠ 0 then
    write ";"
    underlineColor s.underline
  write "m"

/-- Work that writes parameters; the state tells whether the next one is the first. -/
abbrev Listing := StateT Bool Writing

/-- Write a parameter, with a semicolon before it unless it is the first. -/
def parameter (x : Writing Unit) : Listing Unit := do
  if !(← get) then write ";"
  set false
  x

/-- The codes of attributes. -/
def listAttributes (set : Attributes) : Listing Unit :=
  forM Attribute.byCode fun x =>
    if set.has x then parameter (format [toString x.sgrCode]) else pure ()

/-- A colour, if it changes. -/
def listColor (a b : ShownColor) (base : UInt8) : Listing Unit :=
  if a = b then pure () else parameter (color b base)

/-- The underline colour, if it changes. -/
def listUnderline (a b : Color) : Listing Unit :=
  if a = b then pure ()
  else if b.word = 0 then parameter (write "59")
  else parameter (underlineColor b)

/-- The parameters that change a style into one that has its attributes and maybe others. -/
def listChanges (a b : SgrStyle) : Listing Unit := do
  listAttributes (b.attributes.without a.attributes)
  listColor a.foreground b.foreground 30
  listColor a.background b.background 40
  listUnderline a.underline b.underline

/-- Change one style into another with as few parameters as possible. -/
def change (a b : SgrStyle) : Writing Unit :=
  if a = b then pure ()
  else if !(a.attributes.without b.attributes).isEmpty then establish b
  else do
    write "\x1b["
    (listChanges a b).run' true
    write "m"

@[simp] theorem format_nil : format [] = pure () := rfl

theorem format_append (ps qs : List String) :
    format (ps ++ qs) = (do format ps; format qs) :=
  List.forM_append

theorem format_cons (p : String) (ps : List String) :
    format (p :: ps) = (do write p; format ps) :=
  List.forM_cons

theorem format_singleton (p : String) : format [p] = write p := by
  rw [format_cons, format_nil]
  exact bind_pure _

theorem color_eq (c : ShownColor) (base : UInt8) :
    color c base = format (SgrParameter.colorPieces base.toNat c) := by
  have hbase := base.toNat_lt
  -- The codes are sums of 16 bits, which never overflow.
  have hcode (n : UInt16) (hn : n.toNat < 512) :
      toString (base.toUInt16 + n) = toString (base.toNat + n.toNat) := by
    change toString (base.toUInt16 + n).toNat = _
    rw [UInt16.toNat_add, UInt8.toNat_toUInt16, Nat.mod_eq_of_lt (by omega)]
  cases c with
  | indexed i =>
    have hi := i.toNat_lt
    have hplain : i < 8 ↔ i.toNat < 8 := UInt8.lt_iff_toNat_lt
    have hbright : i < 16 ↔ i.toNat < 16 := UInt8.lt_iff_toNat_lt
    have hsum : (52 + i.toUInt16).toNat = 52 + i.toNat := by
      rw [UInt16.toNat_add, UInt8.toNat_toUInt16]
      exact Nat.mod_eq_of_lt (show 52 + i.toNat < 2 ^ 16 by omega)
    simp only [color, SgrParameter.colorPieces, hplain, hbright]
    rw [hcode 8 (by decide), hcode i.toUInt16 (by rw [UInt8.toNat_toUInt16]; omega),
      UInt16.add_assoc, hcode _ (by rw [hsum]; omega), hsum, ← Nat.add_assoc,
      UInt8.toNat_toUInt16]
    split_ifs
    · rfl
    · rfl
    · rfl
  | direct r g b =>
    simp only [color, SgrParameter.colorPieces]
    rw [hcode 8 (by decide)]
    rfl

theorem underlineColor_eq (c : Color) :
    underlineColor c = format (SgrParameter.underline c).pieces := by
  have hred : (c.word >>> 16).toUInt8.toNat = c.red := by
    simp [Color.red, Nat.shiftRight_eq_div_pow]
  have hgreen : (c.word >>> 8).toUInt8.toNat = c.green := by
    simp [Color.green, Nat.shiftRight_eq_div_pow]
  have hblue : c.word.toUInt8.toNat = c.blue := by simp [Color.blue]
  simp only [SgrParameter.pieces]
  rw [← hred, ← hgreen, ← hblue]
  rfl

theorem establish_eq (s : SgrStyle) : establish s = format (Command.establish s).pieces := by
  have hattributes : (forM Attribute.byCode fun x =>
      if s.attributes.has x then format [";", toString x.sgrCode] else pure ()) =
      format (((Attribute.byCode.filter s.attributes.has).map .turnOn).flatMap
        fun p : SgrParameter => ";" :: p.pieces) := by
    induction Attribute.byCode with
    | nil => rfl
    | cons x xs ih =>
      rw [List.forM_cons, ih, List.filter_cons]
      split_ifs with hx
      · exact (format_append _ _).symm
      · rw [pure_bind]
  unfold establish
  rw [hattributes, color_eq, color_eq, underlineColor_eq]
  by_cases hunderline : s.underline.word = 0
  · simp only [hunderline, ne_eq, not_true_eq_false, ↓reduceIte, Command.establish,
      Command.pieces, SgrStyle.parameters, List.append_nil, List.flatMap_append,
      List.flatMap_cons, List.flatMap_nil, List.cons_append, List.append_assoc, format_cons,
      format_append, format_nil, bind_pure_comp, id_map']
    rfl
  · simp only [hunderline, ne_eq, not_false_eq_true, ↓reduceIte, Command.establish,
      Command.pieces, SgrStyle.parameters, List.append_nil, List.flatMap_append,
      List.flatMap_cons, List.flatMap_nil, List.cons_append, List.nil_append, List.append_assoc,
      format_cons, format_append, format_nil, bind_pure_comp, id_map']
    rfl

/-- The pieces of parameters, with a semicolon before each but the first of all. -/
def listed : Bool → List SgrParameter → List String
  | true, ps => Command.separated ps
  | false, ps => ps.flatMap fun p => ";" :: p.pieces

theorem separated_cons (p : SgrParameter) (ps : List SgrParameter) :
    Command.separated (p :: ps) = p.pieces ++ listed false ps := by
  induction ps generalizing p with
  | nil => simp [Command.separated, listed]
  | cons q qs ih =>
    rw [Command.separated, ih]
    · simp [listed]
    · exact nofun

theorem listed_append (first : Bool) (ps qs : List SgrParameter) :
    listed first (ps ++ qs) = listed first ps ++ listed (first && ps.isEmpty) qs := by
  cases first with
  | false => simp [listed]
  | true =>
    cases ps with
    | nil => simp [listed, Command.separated]
    | cons p ps => simp [listed, separated_cons]

/-- The work lists the parameters, whether or not others came before them. -/
def Lists (w : Listing Unit) (ps : List SgrParameter) : Prop :=
  ∀ first, w.run first = do format (listed first ps); return ((), first && ps.isEmpty)

namespace Lists

variable {w v : Listing Unit} {ps qs : List SgrParameter}

theorem nil : Lists (pure ()) [] := by
  intro first
  cases first <;> simp [listed, Command.separated, format]

theorem append (hw : Lists w ps) (hv : Lists v qs) : Lists (do w; v) (ps ++ qs) := by
  intro first
  have hempty : (ps ++ qs).isEmpty = (ps.isEmpty && qs.isEmpty) := by cases ps <;> rfl
  rw [StateT.run_bind, hw, hempty, ← Bool.and_assoc, listed_append, format_append]
  simp only [bind_assoc, pure_bind, hv _]

theorem single {p : SgrParameter} {x : Writing Unit} (hx : x = format p.pieces) :
    Lists (parameter x) [p] := by
  intro first
  subst hx
  cases first with
  | true => simp [parameter, listed, Command.separated]
  | false => simp [parameter, listed, format_cons]

end Lists

theorem lists_attributes (set : Attributes) :
    Lists (listAttributes set) ((Attribute.byCode.filter set.has).map .turnOn) := by
  unfold listAttributes
  induction Attribute.byCode with
  | nil =>
    rw [List.forM_nil, List.filter_nil, List.map_nil]
    exact Lists.nil
  | cons x xs ih =>
    rw [List.forM_cons, List.filter_cons]
    split_ifs with hx
    · have hcode : Lists (parameter (format [toString x.sgrCode])) [.turnOn x] := .single rfl
      exact hcode.append ih
    · rwa [pure_bind]

theorem lists_color {a b : ShownColor} {base : UInt8} {p : SgrParameter}
    (hp : p.pieces = SgrParameter.colorPieces base.toNat b) :
    Lists (listColor a b base) (if a = b then [] else [p]) := by
  unfold listColor
  split_ifs
  · exact .nil
  · exact .single (by rw [color_eq, hp])

theorem lists_underline (a b : Color) :
    Lists (listUnderline a b) (if a = b then []
      else if b.word = 0 then [.defaultUnderline] else [.underline b]) := by
  unfold listUnderline
  split_ifs
  · exact .nil
  · exact .single (format_singleton _).symm
  · exact .single (underlineColor_eq b)

theorem lists_changes (a b : SgrStyle) : Lists (listChanges a b) (a.changes b) := by
  unfold SgrStyle.changes
  rw [List.append_assoc, List.append_assoc]
  exact (lists_attributes _).append ((lists_color rfl).append ((lists_color rfl).append
    (lists_underline _ _)))

theorem change_eq (a b : SgrStyle) :
    change a b = format ((Command.restyling a b).flatMap Command.pieces) := by
  unfold change Command.restyling SgrStyle.onlyAdds
  by_cases heq : a = b
  · rw [if_pos heq, if_pos heq]
    rfl
  rw [if_neg heq, if_neg heq]
  cases (a.attributes.without b.attributes).isEmpty with
  | false =>
    rw [Bool.not_false, if_pos rfl, if_neg Bool.false_ne_true, establish_eq, List.flatMap_singleton]
  | true =>
    rw [Bool.not_true, if_neg Bool.false_ne_true, if_pos rfl, List.flatMap_singleton,
      StateT.run'_eq, lists_changes]
    simp [Command.pieces, listed, format_append, format_cons]

/-- Write to a buffer. -/
def into (w : Writing Unit) (o : Output) : Output × Option IoFailure :=
  match w (Output.sink o.limit) o.pending with
  | (.ok _, after) => ({ o with pending := after }, none)
  | (.error e, after) => ({ o with pending := after }, some e)

theorem into_write (text : String) (o : Output) :
    (write text).into o = match o.accept text.toUTF8 with
      | (after, .ok _) => (after, none)
      | (after, .error e) => (after, some e) := by
  rw [into, write, Output.writeAll_sink]
  rcases le_or_gt text.toUTF8.size o.remaining with hle | hlt
  · rw [Output.accept_of_le hle]
    rfl
  · rw [Output.accept_of_lt hlt]

theorem bind_apply (w v : Writing Unit) (k : Sink) (taken : ByteArray) :
    (do w; v : Writing Unit) k taken = match w k taken with
      | (.ok _, after) => v k after
      | (.error e, after) => (.error e, after) := by
  change (let (r, after) := w k taken; ExceptT.bindCont (fun _ => v k) r after) = _
  cases w k taken with
  | mk result after => cases result <;> rfl

theorem into_bind (w v : Writing Unit) (o : Output) :
    (do w; v : Writing Unit).into o = match w.into o with
      | (after, none) => v.into after
      | (after, some e) => (after, some e) := by
  rw [into, bind_apply, into]
  cases w (Output.sink o.limit) o.pending with
  | mk result after =>
    cases result with
    | ok _ => rfl
    | error e => rfl

theorem into_format (pieces : List String) (o : Output) :
    (format pieces).into o = o.write pieces := by
  induction pieces generalizing o with
  | nil => rfl
  | cons piece pieces ih =>
    rw [format_cons, into_bind, into_write, Output.write_cons]
    cases o.accept piece.toUTF8 with
    | mk after result =>
      cases result with
      | ok _ => exact ih after
      | error e => rfl

end Writing

end CellCanvas
