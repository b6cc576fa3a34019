import RepoAtlas.Text.Trim
import RepoAtlas.Text.Utf8
import RepoAtlas.Text.Wide

/-!
Character sets, by the names that documents give them.
-/
namespace RepoAtlas

inductive Charset where
  | utf8
  | ascii
  | latin1
  | windows1252
  | utf16
  | utf16Little
  | utf16Big
  | utf32
  | utf32Little
  | utf32Big
deriving Repr, DecidableEq, Inhabited

namespace Charset

/-- The names of each character set, in lower case, other signs written as underscores. -/
def names : Charset → List String
  | utf8 => ["utf_8", "utf8", "u8", "utf", "cp65001", "utf8_ucs2", "utf8_ucs4"]
  | ascii =>
    ["ascii", "us_ascii", "us", "646", "ansi_x3.4_1968", "ansi_x3_4_1968", "ansi_x3.4_1986",
      "cp367", "csascii", "ibm367", "iso646_us", "iso_646.irv_1991", "iso_ir_6"]
  | latin1 =>
    ["latin_1", "latin1", "latin", "l1", "iso_8859_1", "iso8859_1", "iso8859", "8859", "cp819",
      "csisolatin1", "ibm819", "iso_8859_1_1987", "iso_ir_100"]
  | windows1252 => ["cp1252", "windows_1252", "1252"]
  | utf16 => ["utf_16", "utf16", "u16"]
  | utf16Little => ["utf_16_le", "utf_16le", "unicodelittleunmarked"]
  | utf16Big => ["utf_16_be", "utf_16be", "unicodebigunmarked"]
  | utf32 => ["utf_32", "utf32", "u32"]
  | utf32Little => ["utf_32_le", "utf_32le"]
  | utf32Big => ["utf_32_be", "utf_32be"]

/-- Runs of signs in a name as one underscore each. -/
def normalName (s : String) : String :=
  let parts := (Text.splitAt (fun c => !(c.isAlphanum || c == '.')) s.toList).filter (!·.isEmpty)
  "_".intercalate (parts.map fun part => String.ofList (part.map Char.toLower))

def ofName? (s : String) : Option Charset :=
  [utf8, ascii, latin1, windows1252, utf16, utf16Little, utf16Big, utf32, utf32Little,
    utf32Big].find? fun c => c.names.contains (normalName s)

/-- The characters of one set between 128 and 159; zero where there is none. -/
def windowsChars : List Nat :=
  [0x20ac, 0, 0x201a, 0x192, 0x201e, 0x2026, 0x2020, 0x2021, 0x2c6, 0x2030, 0x160, 0x2039, 0x152,
    0, 0x17d, 0, 0, 0x2018, 0x2019, 0x201c, 0x201d, 0x2022, 0x2013, 0x2014, 0x2dc, 0x2122, 0x161,
    0x203a, 0x153, 0, 0x17e, 0x178]

def windowsChar (b : UInt8) : Char :=
  if 128 ≤ b.toNat && b.toNat < 160 then
    match windowsChars.getD (b.toNat - 128) 0 with
    | 0 => Wide.mark
    | n => Char.ofNat n
  else Char.ofNat b.toNat

/-- The text that bytes stand for; what is no text shows as a mark. -/
def decode (c : Charset) (bytes : List UInt8) : List Char :=
  match c with
  | utf8 => Utf8.decodeLossy bytes
  | ascii => bytes.map fun b => if b.toNat < 128 then Char.ofNat b.toNat else Wide.mark
  | latin1 => bytes.map fun b => Char.ofNat b.toNat
  | windows1252 => bytes.map windowsChar
  | utf16 => Wide.lossy (Wide.markedPoints16 bytes)
  | utf16Little => Wide.lossy (Wide.points16 true bytes)
  | utf16Big => Wide.lossy (Wide.points16 false bytes)
  | utf32 => Wide.lossy (Wide.markedPoints32 bytes)
  | utf32Little => Wide.lossy (Wide.points32 true bytes)
  | utf32Big => Wide.lossy (Wide.points32 false bytes)

/-- A value without the quotes around it. -/
def unquoted (s : List Char) : List Char :=
  match s with
  | '"' :: rest => (Text.beforeEnd? ['"'] rest).getD s
  | '<' :: rest => (Text.beforeEnd? ['>'] rest).getD s
  | _ => s

/-- The name of the character set in the type of a document. -/
def nameIn? (contentType : String) : Option String :=
  ((Text.splitOnChar ';' contentType).drop 1).findSome? fun param =>
    match Text.splitAt (· == '=') param.toList with
    | name :: value :: more =>
      if Text.trim (String.ofList name).toLower == "charset" then
        let text := (Text.joinWith ['='] (value :: more))
        some (String.ofList (unquoted (Text.trimWhile Unicode.isBlank text)))
      else none
    | _ => none

/-- The character set of a document, which is UTF-8 unless a known one is named. -/
def ofContentType (contentType : Option String) : Charset :=
  ((contentType.bind nameIn?).bind ofName?).getD utf8

end Charset

end RepoAtlas
