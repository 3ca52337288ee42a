import CellCanvas.Proofs.Image.Texts
import CellCanvas.Proofs.Wire.Parameters
import Mathlib

/-!
# Reading graphics sequences

A terminal takes graphics sequences as requests: to keep a picture under a number, to show it at
the cursor, to delete it. A picture may come in several sequences, of which the first has the
numbers and each says whether more follow; it is complete only with the last one and only if it has
four bytes a pixel. `Carries text requests` says that a text is whole sequences that make exactly
these requests.
-/

namespace CellCanvas

open Wire Text

namespace Kitty

/-- What a terminal keeps under a number. -/
structure Picture where
  pixels : ByteArray
  width : Nat
  height : Nat
deriving DecidableEq

/-- Where a picture is shown. -/
structure Placement where
  column : Nat
  row : Nat
  columns : Nat
  rows : Nat
  z : Int
deriving DecidableEq

/-- What a terminal is asked to do. -/
inductive Request where
  | transmit (id : Nat) (picture : Picture)
  | place (id : Nat) (placement : Placement)
  | delete (id : Nat)
deriving DecidableEq

/-- The value in one field of control data if the field has the key. -/
def valueIn? (key : Char) : List Char → Option (List Char)
  | k :: '=' :: value => if key = k then some value else none
  | _ => none

/-- The value of a key in control data. -/
def field? (control : List Char) (key : Char) : Option (List Char) :=
  (pieces ',' control).findSome? (valueIn? key)

/-- The number of a key in control data. -/
def number? (control : List Char) (key : Char) : Option Nat := (field? control key).map number

/-- An integer, with a sign when it is negative. -/
def integer : List Char → Int
  | '-' :: digits => -number digits
  | digits => number digits

/-- A picture that has not come completely. -/
structure Upload where
  id : Nat
  width : Nat
  height : Nat
  /-- The pixels of the sequences so far. -/
  pixels : ByteArray

/-- What has been read of a stream of sequences. -/
structure Reader where
  cursor : Nat × Nat
  upload : Option Upload

/-- Take the pixels of one more sequence. -/
def Upload.take (u : Upload) (control payload : List Char) :
    Option (Option Upload × List Request) :=
  (Base64.decodeFrom? u.pixels payload).bind fun pixels =>
    match field? control 'm' with
    | some ['1'] => some (some { u with pixels }, [])
    | some ['0'] =>
      if pixels.size = u.width * u.height * 4 then
        some (none, [.transmit u.id ⟨pixels, u.width, u.height⟩])
      else none
    | _ => none

/-- The picture that a first sequence announces: four bytes a pixel, and nothing has come yet. -/
def announced? (control : List Char) : Option Upload := do
  guard (field? control 'f' = some ['3', '2'])
  return ⟨← number? control 'i', ← number? control 's', ← number? control 'v', .empty⟩

/-- The request to show a picture at the cursor. -/
def placed? (cursor : Nat × Nat) (control : List Char) : Option Request := do
  return .place (← number? control 'i')
    ⟨cursor.1, cursor.2, ← number? control 'c', ← number? control 'r',
      integer (← field? control 'z')⟩

/-- The request to delete a picture by its number. -/
def deleted? (control : List Char) : Option Request := do
  guard (field? control 'd' = some ['i'])
  return .delete (← number? control 'i')

namespace Reader

/-- Take a graphics sequence. Between the sequences of a picture there is no other one. -/
def obey (r : Reader) (control payload : List Char) : Option (Reader × List Request) :=
  match r.upload, field? control 'a' with
  | some u, none => (u.take control payload).map fun next => ({ r with upload := next.1 }, next.2)
  | none, some ['t'] => (announced? control).bind fun u =>
    (u.take control payload).map fun next => ({ r with upload := next.1 }, next.2)
  | none, some ['p'] => (placed? r.cursor control).map fun request => (r, [request])
  | none, some ['d'] => (deleted? control).map fun request => (r, [request])
  | _, _ => none

/-- Take a token. Only graphics sequences and cursor positions matter. -/
def read (r : Reader) : Token → Option (Reader × List Request)
  | .control ps 'H' => some ({ r with cursor := match numbers ps with
      | [y, x] => (x - 1, y - 1)
      | _ => (0, 0) }, [])
  | .string '_' ('G' :: body) => match pieces ';' body with
    | [control] => r.obey control []
    | [control, payload] => r.obey control payload
    | _ => none
  | _ => some (r, [])

/-- Take tokens in order. -/
def readAll (r : Reader) : List Token → Option (Reader × List Request)
  | [] => some (r, [])
  | t :: ts => (r.read t).bind fun first =>
    (first.1.readAll ts).map fun rest => (rest.1, first.2 ++ rest.2)

theorem readAll_append (r : Reader) (ts us : List Token) :
    r.readAll (ts ++ us) = (r.readAll ts).bind fun first =>
      (first.1.readAll us).map fun rest => (rest.1, first.2 ++ rest.2) := by
  induction ts generalizing r with
  | nil => simp [readAll]
  | cons t ts ih =>
    simp only [List.cons_append, readAll, ih]
    cases r.read t with
    | none => rfl
    | some first =>
      simp only [Option.bind_some]
      cases first.1.readAll ts with
      | none => rfl
      | some second =>
        simp [Function.comp_def]

end Reader

/-- The requests of bytes that are whole sequences. -/
def requests? (bytes : ByteArray) : Option (List Request) :=
  (String.fromUTF8? bytes).bind fun text =>
    match scan .ground text.toList with
    | (.ground, tokens) => (Reader.readAll ⟨(0, 0), none⟩ tokens).bind fun last =>
      if last.1.upload.isNone then some last.2 else none
    | _ => none

/-- A text is whole sequences that make these requests. -/
def Carries (text : String) (requests : List Request) : Prop :=
  ∃ tokens, Spells text.toList tokens ∧
    ∀ cursor, ∃ cursor', Reader.readAll ⟨cursor, none⟩ tokens = some (⟨cursor', none⟩, requests)

namespace Carries

theorem empty : Carries "" [] := ⟨[], .nil, fun cursor => ⟨cursor, rfl⟩⟩

theorem append {s t : String} {as bs : List Request} (hs : Carries s as) (ht : Carries t bs) :
    Carries (s ++ t) (as ++ bs) := by
  obtain ⟨ts, hts, hread⟩ := hs
  obtain ⟨us, hus, hread'⟩ := ht
  refine ⟨ts ++ us, ?_, ?_⟩
  · rw [String.toList_append]
    exact hts.append hus
  · intro cursor
    obtain ⟨cursor', hfirst⟩ := hread cursor
    obtain ⟨cursor'', hsecond⟩ := hread' cursor'
    refine ⟨cursor'', ?_⟩
    rw [Reader.readAll_append, hfirst, Option.bind_some, hsecond]
    rfl

theorem requests? {text : String} {requests : List Request} (h : Carries text requests) :
    requests? text.toUTF8 = some requests := by
  obtain ⟨tokens, hspells, hread⟩ := h
  obtain ⟨cursor', hlast⟩ := hread (0, 0)
  unfold Spells at hspells
  rw [Kitty.requests?, fromUTF8?_toUTF8, Option.bind_some, hspells]
  dsimp only
  rw [hlast]
  rfl

end Carries

/-- Control data as written: keys with their values. -/
def control : List (Char × List Char) → List Char
  | [] => []
  | [(k, value)] => k :: '=' :: value
  | (k, value) :: rest => k :: '=' :: value ++ ',' :: control rest

/-- Whether a character may stand in a value. -/
def isValueChar (c : Char) : Bool := c.isAlphanum || c == '-'

/-- Whether keys and values consist of letters, digits and minus signs. -/
def AreFields (fields : List (Char × List Char)) : Prop :=
  ∀ f ∈ fields, isValueChar f.1 = true ∧ f.2.all isValueChar = true

theorem ne_of_isValueChar {c d : Char} (hc : isValueChar c = true) (hd : isValueChar d = false) :
    c ≠ d := by
  rintro rfl
  rw [hc] at hd
  cases hd

/-- The keys of control data have the values that were written. -/
theorem field?_control {fields : List (Char × List Char)} (h : AreFields fields) (key : Char) :
    field? (control fields) key = fields.lookup key := by
  induction fields with
  | nil => rfl
  | cons f rest ih =>
    obtain ⟨k, value⟩ := f
    obtain ⟨hk, hall⟩ := h (k, value) (by simp)
    have hv := List.all_eq_true.mp hall
    have hcomma (c : Char) (hc : c ∈ k :: '=' :: value) : c ≠ ',' := by
      simp only [List.mem_cons] at hc
      rcases hc with rfl | rfl | hc
      · exact ne_of_isValueChar hk (by decide)
      · decide
      · exact ne_of_isValueChar (hv c hc) (by decide)
    have hfirst : pieces ',' (k :: '=' :: value) = [k :: '=' :: value] :=
      pieces_of_forall_ne hcomma
    have hvalue : valueIn? key (k :: '=' :: value) = if key = k then some value else none := rfl
    have hrest := ih fun f hf => h f (List.mem_cons_of_mem _ hf)
    rw [List.lookup_cons]
    cases rest with
    | nil =>
      rw [control, field?, hfirst, List.findSome?_singleton, hvalue]
      by_cases heq : key = k
      · simp [heq]
      · simp [heq, beq_false_of_ne heq]
    | cons g rest =>
      have hjoin : control ((k, value) :: g :: rest) =
          (k :: '=' :: value) ++ ',' :: control (g :: rest) := rfl
      rw [hjoin, field?, pieces_append, hfirst, List.findSome?_append, List.findSome?_singleton,
        hvalue, ← field?, hrest]
      by_cases heq : key = k
      · simp [heq]
      · simp [heq, beq_false_of_ne heq]

theorem forall_mem_control {fields : List (Char × List Char)} (h : AreFields fields)
    {p : Char → Prop} (hvalue : ∀ c, isValueChar c = true → p c) (heq : p '=') (hcomma : p ',') :
    ∀ c ∈ control fields, p c := by
  intro c hc
  induction fields with
  | nil => cases hc
  | cons f rest ih =>
    obtain ⟨k, value⟩ := f
    obtain ⟨hk, hall⟩ := h (k, value) (by simp)
    have hv := List.all_eq_true.mp hall
    have hfirst (hc : c ∈ k :: '=' :: value) : p c := by
      simp only [List.mem_cons] at hc
      rcases hc with rfl | rfl | hc
      · exact hvalue _ hk
      · exact heq
      · exact hvalue c (hv c hc)
    cases rest with
    | nil => exact hfirst hc
    | cons g rest =>
      rcases List.mem_append.mp hc with hc | hc
      · exact hfirst hc
      · rcases List.mem_cons.mp hc with rfl | hc
        · exact hcomma
        · exact ih (fun f hf => h f (List.mem_cons_of_mem _ hf)) hc

theorem pieces_control {fields : List (Char × List Char)} (h : AreFields fields) :
    pieces ';' (control fields) = [control fields] :=
  pieces_of_forall_ne (forall_mem_control h (fun _ hc => ne_of_isValueChar hc (by decide))
    (by decide) (by decide))

theorem not_isControl_of_isValueChar {c : Char} (h : isValueChar c = true) :
    isControl c = false := by
  have hnat : c.toNat = c.val.toNat := rfl
  simp only [isValueChar, Char.isAlphanum, Char.isAlpha, Char.isUpper, Char.isLower, Char.isDigit,
    Bool.or_eq_true, Bool.and_eq_true, decide_eq_true_eq, beq_iff_eq, ge_iff_le,
    UInt32.le_iff_toNat_le] at h
  simp only [isControl, Bool.or_eq_false_iff, Bool.and_eq_false_iff, decide_eq_false_iff_not, hnat]
  rcases h with ((⟨hlow, hhigh⟩ | ⟨hlow, hhigh⟩) | ⟨hlow, hhigh⟩) | rfl
  · simp at hlow hhigh
    omega
  · simp at hlow hhigh
    omega
  · simp at hlow hhigh
    omega
  · decide

theorem isSafeText_of_control {fields : List (Char × List Char)} (h : AreFields fields)
    {text : String} (htext : text.toList = control fields) : isSafeText text = true := by
  rw [isSafeText, htext, List.all_eq_true]
  exact forall_mem_control h (fun c hc => by rw [not_isControl_of_isValueChar hc]; rfl) rfl rfl

theorem isValueChar_of_mem_numeral {n : Nat} {c : Char} (h : c ∈ numeral n) :
    isValueChar c = true := by
  simp [isValueChar, Char.isAlphanum, isDigit_of_mem_numeral h]

theorem all_numeral (n : Nat) : (numeral n).all isValueChar = true :=
  List.all_eq_true.mpr fun _ => isValueChar_of_mem_numeral

theorem toList_toString_int (z : Int) : (toString z).toList = match z with
    | .ofNat n => numeral n
    | .negSucc n => '-' :: numeral (n + 1) := by
  cases z with
  | ofNat n => exact toList_toString n
  | negSucc n =>
    have htext : toString (Int.negSucc n) = "-" ++ toString (n + 1) := rfl
    rw [htext, String.toList_append, toList_toString]
    rfl

theorem all_toString (z : Int) : (toString z).toList.all isValueChar = true := by
  rw [toList_toString_int]
  cases z with
  | ofNat n => exact all_numeral n
  | negSucc n => exact all_numeral (n + 1)

theorem integer_of_forall_ne {digits : List Char} (h : ∀ c ∈ digits, c ≠ '-') :
    integer digits = number digits := by
  cases digits with
  | nil => rfl
  | cons d rest =>
    unfold integer
    split
    · exact absurd rfl (h '-' (by simp_all))
    · rfl

theorem integer_toString (z : Int) : integer (toString z).toList = z := by
  rw [toList_toString_int]
  cases z with
  | ofNat n =>
    dsimp only
    rw [integer_of_forall_ne fun c hc => ne_of_mem_numeral hc (by decide), number_numeral]
    rfl
  | negSucc n =>
    simp only [integer, number_numeral]
    omega

/-- A sequence without a payload. -/
theorem read_control {fields : List (Char × List Char)} (h : AreFields fields) (r : Reader) :
    r.read (.string '_' ('G' :: control fields)) = r.obey (control fields) [] := by
  simp only [Reader.read, pieces_control h]

/-- Neither control data nor a payload contains what separates them. -/
theorem pieces_payload {fields : List (Char × List Char)} (h : AreFields fields)
    (bytes : ByteArray) :
    pieces ';' (control fields ++ ';' :: (Base64.encode bytes).toList) =
      [control fields, (Base64.encode bytes).toList] := by
  have hpayload : pieces ';' (Base64.encode bytes).toList = [(Base64.encode bytes).toList] := by
    apply pieces_of_forall_ne
    rintro c hc rfl
    exact absurd (Base64.isSymbol_of_mem_encode hc) (by decide)
  rw [pieces_append, pieces_control h, hpayload, List.singleton_append]

/-- A sequence with a payload. -/
theorem read_payload {fields : List (Char × List Char)} (h : AreFields fields) (r : Reader)
    (bytes : ByteArray) :
    r.read (.string '_' ('G' :: (control fields ++ ';' :: (Base64.encode bytes).toList))) =
      r.obey (control fields) (Base64.encode bytes).toList := by
  simp only [Reader.read, pieces_payload h]

/-- A cursor position makes no request. -/
theorem read_cursorTo (r : Reader) (column row : Nat) :
    r.readAll (Command.cursorTo column row).tokens =
      some ({ r with cursor := (column, row) }, []) := by
  simp [Command.tokens, Reader.readAll, Reader.read]

end Kitty

end CellCanvas
