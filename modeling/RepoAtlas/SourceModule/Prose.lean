import RepoAtlas.Text.Trim

/-!
The prose of a documentation comment.
-/
namespace RepoAtlas

open Text

/-- A text without its opening and closing comment marks. -/
def withoutCommentMarks (comment : List Char) : List Char :=
  let body := trimWhile Unicode.isBlank comment
  let body := (afterStart? "/**".toList body).getD body
  (beforeEnd? "*/".toList body).getD body

/-- What one line of a comment says: the line without stars in front and without outer blanks. -/
def proseLine (line : List Char) : List Char :=
  trimWhile Unicode.isBlank ((trimWhile Unicode.isBlank line).dropWhile (· == '*'))

/-- The lines that say something, up to the first tag. -/
def proseLines : List (List Char) → List (List Char)
  | [] => []
  | line :: rest =>
    let said := proseLine line
    if said.head? == some '@' then []
    else if said.isEmpty then proseLines rest
    else said :: proseLines rest

/-- The prose of a documentation comment on one line, without tags. -/
def proseOf (comment : String) : String :=
  String.ofList (trimWhile Unicode.isBlank
    (joinWith [' '] (proseLines (lines (withoutCommentMarks comment.toList)))))

end RepoAtlas
