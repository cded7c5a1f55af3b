/-!
# Fields of a text

A text of fields with one character between them. There is always one field more than there are such
characters, and fields may be empty.
-/

namespace EchoLoad.Text

/-- The fields between the separators of a text. -/
def fields (separator : Char) : List Char → List (List Char)
  | [] => [[]]
  | c :: rest =>
    if c = separator then [] :: fields separator rest
    else match fields separator rest with
      | [] => [[c]]
      | field :: more => (c :: field) :: more

/-- The fields of a text, as texts. -/
def fieldsOf (separator : Char) (text : String) : List String :=
  (fields separator text.toList).map String.ofList

theorem fields_ne_nil (separator : Char) (cs : List Char) : fields separator cs ≠ [] := by
  cases cs with
  | nil => simp [fields]
  | cons c rest =>
    simp only [fields]
    split
    · simp
    · split <;> simp

end EchoLoad.Text
