import RepoAtlas.Json.Reader
import RepoAtlas.Text.Wide
import RepoAtlas.Text.Utf8

/-!
JSON documents as bytes. How the text is encoded shows in the first bytes, since
a document begins with two ASCII characters or with a mark.
-/
namespace RepoAtlas

namespace Json

/--
The text of a document. Halves of surrogate pairs may stand alone in it; other
bytes that are no text are not passed over.
-/
def textOfBytes? : List UInt8 → Option LooseText
  | 0xef :: 0xbb :: 0xbf :: rest => Utf8.decodeLoose? rest
  | bytes@(a :: b :: rest) =>
    if bytes.take 4 == [0, 0, 0xfe, 0xff] || bytes.take 4 == [0xff, 0xfe, 0, 0] then
      Wide.strict? (Wide.markedPoints32 bytes)
    else if bytes.take 2 == [0xfe, 0xff] || bytes.take 2 == [0xff, 0xfe] then
      Wide.strict? (Wide.markedPoints16 bytes)
    else if rest.length == 1 then Utf8.decodeLoose? bytes
    else if a == 0 then
      Wide.strict? (if b != 0 || rest.isEmpty then Wide.points16 false bytes
        else Wide.points32 false bytes)
    else if b == 0 then
      Wide.strict? (if rest.isEmpty || (rest.take 2).any (· != 0) then Wide.points16 true bytes
        else Wide.points32 true bytes)
    else Utf8.decodeLoose? bytes
  | bytes => Utf8.decodeLoose? bytes

end Json

end RepoAtlas
