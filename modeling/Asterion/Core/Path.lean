import Asterion.Core.Text

/-! File paths as texts, with slashes between the components. -/
namespace Asterion

/-- The component behind the last slash. -/
def pathFilename (path : Text) : Text := (path.reverse.takeWhile (· != 47)).reverse

/-- The directory of a path, without the slashes that end it. -/
def parentPath (path : Text) : Text :=
  let front := path.reverse.dropWhile (· != 47)
  let trimmed := front.dropWhile (· == 47)
  if trimmed = [] ∧ front ≠ [] then [47] else trimmed.reverse

/-- The name of a file, cut before its last dot; a dot in front does not count. -/
def splitExtension (name : Text) : Text × Text :=
  let back := name.reverse.takeWhile (· != 46)
  let stem := name.take (name.length - (back.length + 1))
  if name = [46, 46] ∨ back.length = name.length ∨ stem = [] then (name, [])
  else (stem, name.drop stem.length)

end Asterion
