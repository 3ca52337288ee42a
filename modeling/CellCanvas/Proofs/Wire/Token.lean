import CellCanvas.Proofs.Wire.Scan

/-!
# Written tokens

A token is written as the characters that make a terminal act on it. When no token contains what
would end it early, a text can be cut into tokens in one way only: reading it gives them back.
-/

namespace CellCanvas.Wire

namespace Token

/-- The characters of a token. -/
def written : Token → List Char
  | shown c => [c]
  | control ps final => escapeChar :: '[' :: ps ++ [final]
  | string opener body => escapeChar :: opener :: body ++ [escapeChar, '\\']

/-- Nothing within the token ends it early or starts another one. -/
def IsComplete : Token → Prop
  | shown c => isControl c = false
  | control ps final => (∀ c ∈ ps, isParameter c = true) ∧ isFinal final = true
  | string opener body => opensString opener = true ∧ ∀ c ∈ body, c ≠ escapeChar ∧ c ≠ bell

theorem IsComplete.spells {t : Token} (h : t.IsComplete) : Spells t.written [t] := by
  cases t with
  | shown c => exact Spells.shown fun d hd => List.mem_singleton.mp hd ▸ h
  | control ps final => exact Spells.control h.1 h.2
  | string opener body => exact Spells.string h.1 h.2

end Token

/-- A text consists of tokens, and of no others. -/
structure IsTokenized (cs : List Char) (ts : List Token) : Prop where
  complete : ∀ t ∈ ts, t.IsComplete
  written : ts.flatMap Token.written = cs
  /-- A terminal acts on these tokens and waits for nothing more. -/
  spells : Spells cs ts
  unique : ∀ us, (∀ u ∈ us, u.IsComplete) → us.flatMap Token.written = cs → us = ts

theorem spells_written {ts : List Token} (h : ∀ t ∈ ts, t.IsComplete) :
    Spells (ts.flatMap Token.written) ts := by
  have hspells := Spells.flatMap fun t ht => (h t ht).spells
  rwa [List.flatMap_singleton'] at hspells

theorem isTokenized {cs : List Char} {ts : List Token} (hcomplete : ∀ t ∈ ts, t.IsComplete)
    (hwritten : ts.flatMap Token.written = cs) : IsTokenized cs ts := by
  have hspells : Spells cs ts := hwritten ▸ spells_written hcomplete
  refine ⟨hcomplete, hwritten, hspells, ?_⟩
  intro us hus hsame
  have hread : scan .ground cs = (.ground, ts) := hspells
  have hread' : scan .ground cs = (.ground, us) := hsame ▸ spells_written hus
  exact congrArg Prod.snd (hread'.symm.trans hread)

end CellCanvas.Wire
