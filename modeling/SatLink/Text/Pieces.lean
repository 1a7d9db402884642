/-!
# Pieces of a text

A separator cuts a text into pieces: one more of them than there are separators, and any of them may
be empty.
-/

namespace SatLink.Text

/-- The pieces between the separators. -/
def pieces (separator : Char) : List Char → List (List Char)
  | [] => [[]]
  | c :: rest =>
      if c = separator then [] :: pieces separator rest
      else
        match pieces separator rest with
        | first :: more => (c :: first) :: more
        | [] => [[c]]

theorem pieces_of_not_mem {separator : Char} {text : List Char} (h : separator ∉ text) :
    pieces separator text = [text] := by
  induction text with
  | nil => rfl
  | cons c rest ih =>
    have hc : c ≠ separator := fun e => h (by simp [e])
    have hr : separator ∉ rest := fun m => h (by simp [m])
    simp [pieces, hc, ih hr]

theorem pieces_append {separator : Char} {text : List Char} (h : separator ∉ text)
    (rest : List Char) :
    pieces separator (text ++ separator :: rest) = text :: pieces separator rest := by
  induction text with
  | nil => simp [pieces]
  | cons c text ih =>
    have hc : c ≠ separator := fun e => h (by simp [e])
    have hr : separator ∉ text := fun m => h (by simp [m])
    simp [pieces, hc, ih hr]

/-- What stands before the first separator, and what stands behind it, if there is one. -/
def splitFirst (separator : Char) : List Char → List Char × Option (List Char)
  | [] => ([], none)
  | c :: rest =>
      if c = separator then ([], some rest)
      else
        let (before, behind) := splitFirst separator rest
        (c :: before, behind)

theorem splitFirst_of_not_mem {separator : Char} {text : List Char} (h : separator ∉ text) :
    splitFirst separator text = (text, none) := by
  induction text with
  | nil => rfl
  | cons c rest ih =>
    have hc : c ≠ separator := fun e => h (by simp [e])
    have hr : separator ∉ rest := fun m => h (by simp [m])
    simp [splitFirst, hc, ih hr]

theorem splitFirst_append {separator : Char} {text : List Char} (h : separator ∉ text)
    (rest : List Char) :
    splitFirst separator (text ++ separator :: rest) = (text, some rest) := by
  induction text with
  | nil => simp [splitFirst]
  | cons c text ih =>
    have hc : c ≠ separator := fun e => h (by simp [e])
    have hr : separator ∉ text := fun m => h (by simp [m])
    simp [splitFirst, hc, ih hr]

end SatLink.Text
