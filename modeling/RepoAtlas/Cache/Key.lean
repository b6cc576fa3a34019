import RepoAtlas.Hash.Sha256
import RepoAtlas.Text.Trim

/-!
The key under which the analysis of a repository is stored.
-/
namespace RepoAtlas

open Text

/-- A location in lower case, without slashes and one `.git` at its end. -/
def normalizedLocation (location : String) : String :=
  let text := trimEnd (· == '/') (Unicode.lowercase (trim location))
  match beforeEnd? ".git".toList text.toList with
  | some rest => String.ofList rest
  | none => text

/-- The text that tells the analyses of different repositories and branches apart. -/
def fingerprint (location branch : String) : String :=
  normalizedLocation location ++ "#" ++ branch

/--
A text with its marks filled in, in order, by the code points that they stand
for. What finds no mark follows at the end.
-/
def filledIn : LooseText → List Char → LooseText
  | points, [] => points
  | [], text => .ofChars text
  | point :: points, c :: rest =>
    if c == point.shown then point :: filledIn points rest
    else .char c :: filledIn (point :: points) rest

/--
The fingerprint of loose texts. In a location that is brought into its usual
form neither surrogates nor marks change or are lost.
-/
def looseFingerprint (location branch : LooseText) : LooseText :=
  filledIn (location.filter fun point => point.shown == '\uFFFD')
    (normalizedLocation location.shown).toList ++ .char '#' :: branch

/-- The key of a location and a branch. -/
def cacheKey (location branch : String) : String :=
  Sha256.hexDigest (fingerprint location branch)

end RepoAtlas
