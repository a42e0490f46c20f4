/-!
# Cutting and joining texts

Texts are cut at each occurrence of a separator, from the left and without overlap, and joined
again with the separator between the parts.
-/

namespace BuildMatrix.Text

/-- What follows `lead` if the text starts with it. -/
def after? : (lead s : List Char) → Option (List Char)
  | [], s => some s
  | _ :: _, [] => none
  | a :: lead, b :: s => if a = b then after? lead s else none

/-- Whether the text starts with `lead`. -/
def startsWith (lead s : List Char) : Bool := (after? lead s).isSome

/-- Whether the text ends with `tail`. -/
def endsWith (tail s : List Char) : Bool := startsWith tail.reverse s.reverse

/-- Cuts at each character `sep`; a text without it is one part. -/
def splitAt (sep : Char) : List Char → List (List Char)
  | [] => [[]]
  | c :: s =>
    if c = sep then [] :: splitAt sep s
    else match splitAt sep s with
      | [] => [[c]]
      | part :: parts => (c :: part) :: parts

/--
The cut at the first occurrence of a separator: the text before it and the text after it. An empty
separator occurs nowhere.
-/
def cut? (sep : List Char) : List Char → Option (List Char × List Char)
  | [] => none
  | c :: s =>
    if sep.isEmpty then none
    else match after? sep (c :: s) with
      | some rest => some ([], rest)
      | none => (cut? sep s).map fun (before, rest) => (c :: before, rest)

theorem after?_length {lead s rest : List Char} (h : after? lead s = some rest) :
    s.length = lead.length + rest.length := by
  induction lead generalizing s with
  | nil => simp only [after?, Option.some.injEq] at h; simp [h]
  | cons a lead ih =>
    cases s with
    | nil => simp [after?] at h
    | cons b s =>
      simp only [after?] at h
      split at h
      · have := ih h; simp only [List.length_cons]; omega
      · simp at h

theorem cut?_length {sep s before rest : List Char} (h : cut? sep s = some (before, rest)) :
    rest.length < s.length := by
  induction s generalizing before with
  | nil => simp [cut?] at h
  | cons c s ih =>
    simp only [cut?] at h
    split at h
    · simp at h
    · rename_i hsep
      split at h
      · rename_i r hr
        simp only [Option.some.injEq, Prod.mk.injEq] at h
        have := after?_length hr
        have hpos : 0 < sep.length := by
          cases sep with
          | nil => simp at hsep
          | cons => simp
        rw [← h.2]; omega
      · simp only [Option.map_eq_some_iff] at h
        obtain ⟨⟨b, r⟩, hc, he⟩ := h
        simp only [Prod.mk.injEq] at he
        obtain ⟨-, rfl⟩ := he
        have := ih hc
        simp only [List.length_cons]; omega

/-- Cuts at each occurrence of the text `sep`, from the left; without one the text is one part. -/
def splitOn (sep s : List Char) : List (List Char) :=
  match _h : cut? sep s with
  | none => [s]
  | some (before, rest) => before :: splitOn sep rest
termination_by s.length
decreasing_by exact cut?_length _h

/-- Replaces each occurrence of `old`, from the left, by `new`. -/
def replace (old new s : List Char) : List Char :=
  match _h : cut? old s with
  | none => s
  | some (before, rest) => before ++ new ++ replace old new rest
termination_by s.length
decreasing_by exact cut?_length _h

/-- Writes the parts one after the other with `sep` between them. -/
def joinWith (sep : String) (parts : List String) : String := String.intercalate sep parts

/--
The lines of a text: cut at line feeds, without the empty part after a final one, and each without
one carriage return at its end if a line feed ended it.
-/
def lines (s : List Char) : List (List Char) :=
  let parts := splitAt '\n' s
  let ended := (parts.dropLast).map fun line =>
    if line.getLast? = some '\r' then line.dropLast else line
  match parts.getLast? with
  | some [] | none => ended
  | some line => ended ++ [line]

end BuildMatrix.Text
