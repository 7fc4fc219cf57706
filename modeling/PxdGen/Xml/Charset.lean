import PxdGen.Fault
import PxdGen.Xml.Letter
import PxdGen.Xml.Charset.Table
/-! # Encodings of documents

A document is a sequence of bytes. They are read as UTF-8, or as UTF-16 if one of the first two is
zero, up to the end of the declaration of XML, which can name the encoding of the rest. Encodings
with a byte for each character are read by tables, all others are refused. A byte that stands for
no character is read as the character zero, which no document may contain.
-/

namespace PxdGen.Xml

inductive Charset where
  | utf8
  /-- units of two bytes, of which the high one comes first or last -/
  | utf16 (isHighFirst : Bool)
  /-- single bytes; the characters from 128 on are listed, and one of the others may be missing -/
  | single (high : Array Char) (missing : Option Char) (alphabet : Alphabet)

namespace Charset

def noChar : Char := Char.ofNat 0

/-- The characters whose numbers are the bytes from `first` on. -/
def highFrom (first : Nat) : List Char := (List.range' first (256 - first)).map Char.ofNat

def ascii : Charset := .single #[] none {}

def latin (alphabet : Alphabet) : Charset := .single (highFrom 128).toArray none alphabet

def ofTable (table : String) : Charset :=
  let controls := (highFrom 128).take (128 - table.length)
  .single (controls ++ table.toList).toArray none {}

/-- Small letters, with an underscore for everything between two parts of a name. -/
def plainName (name : String) : String :=
  let isPart := fun c : Char => c.isAlphanum || c == '.'
  let spaced := name.toLower.map fun c => if isPart c then c else '_'
  "_".intercalate ((spaced.splitOn "_").filter fun part => !part.isEmpty)

/-- Whether a plain name is one of an encoding. -/
def Name.fits (n : Name) (name : String) : Bool :=
  n.own == name || n.others.contains name ||
    n.others.contains (name.map fun c => if c == '.' then '_' else c)

def named (name : String) : Except Fault Charset :=
  let plain := plainName name
  let isOneOf := fun (names : List Name) => names.any (·.fits plain)
  match byteTables.find? (·.1.fits plain) with
  | some (_, table) => .ok (ofTable table)
  | none =>
    if isOneOf asciiNames then .ok ascii
    else if isOneOf latinNames then .ok (latin {})
    else if isOneOf tildeNames then .ok (.single #[] (some '~') {})
    else if isOneOf wideNames then .error .malformed
    else if isOneOf alienNames then .error .malformedMarkup
    else if plain == "idna" || plain == "undefined" then .error .unusableEncoding
    else if plain == "punycode" then .error .undecodable
    else .error .unknownEncoding

/-- The encoding of what stands behind a declaration of XML that names one. A name of the standard
must not contradict how the declaration itself was read. -/
def declared (first : Charset) (name : String) : Except Fault Charset :=
  match name.toUpper, first with
  | "UTF-8", .utf8 | "UTF-16", .utf16 _ => .ok first
  | "UTF-16BE", .utf16 true | "UTF-16LE", .utf16 false => .ok first
  | "ISO-8859-1", .utf8 => .ok (latin .latin)
  | "US-ASCII", .utf8 => .ok ascii
  | "UTF-8", _ | "UTF-16", _ | "UTF-16BE", _ | "UTF-16LE", _ | "ISO-8859-1", _ | "US-ASCII", _ =>
    .error .malformedMarkup
  | _, _ => named name

def alphabet : Charset → Alphabet
  | .utf8 => {}
  | .utf16 _ => .latin
  | .single _ _ alphabet => alphabet

/-! ### Reading bytes -/

/-- The units of two bytes; a byte that is left over is none. -/
def units (isHighFirst : Bool) : List UInt8 → List Nat
  | a :: b :: rest =>
    (if isHighFirst then a.toNat * 256 + b.toNat else b.toNat * 256 + a.toNat) ::
      units isHighFirst rest
  | [_] => [0]
  | [] => []

def isLead (u : Nat) : Bool := 0xD800 ≤ u && u < 0xDC00

def isTrail (u : Nat) : Bool := 0xDC00 ≤ u && u < 0xE000

def ofUnits : List Nat → List Char
  | u :: v :: rest =>
    if isLead u && isTrail v then
      Char.ofNat (0x10000 + (u - 0xD800) * 0x400 + (v - 0xDC00)) :: ofUnits rest
    else (if isLead u || isTrail u then noChar else Char.ofNat u) :: ofUnits (v :: rest)
  | [u] => [if isLead u || isTrail u then noChar else Char.ofNat u]
  | [] => []

def ofByte (high : Array Char) (missing : Option Char) (b : UInt8) : Char :=
  if b.toNat < 128 then
    let c := Char.ofNat b.toNat
    if missing == some c then noChar else c
  else
    match high[b.toNat - 128]? with
    | some c => if c == '\uFFFD' then noChar else c
    | none => noChar

def encode : Charset → List Char → List UInt8
  | .utf16 isHighFirst, s =>
    let unit := fun (u : Nat) =>
      let high := UInt8.ofNat (u / 256)
      let low := UInt8.ofNat (u % 256)
      if isHighFirst then [high, low] else [low, high]
    s.flatMap fun c =>
      let n := c.toNat
      if n < 0x10000 then unit n
      else unit (0xD800 + (n - 0x10000) / 0x400) ++ unit (0xDC00 + (n - 0x10000) % 0x400)
  | _, s => (String.ofList s).toUTF8.toList

/-- Reads in a second encoding what was read in a first one. -/
def recode (first second : Charset) (s : List Char) : List Char :=
  match second with
  | .single high missing _ => (first.encode s).map (ofByte high missing)
  | _ => s

/-- How the beginning of a document is read, and what it reads as. -/
def detect (document : String) : Charset × List Char :=
  let s := document.toList
  match s with
  | a :: b :: _ =>
    let wide := fun isBig => ofUnits (units isBig (Charset.utf8.encode s))
    if a == noChar then (.utf16 true, wide true)
    else if a.toNat < 128 && b == noChar then (.utf16 false, wide false)
    else (.utf8, if a == '\uFEFF' then s.drop 1 else s)
  | _ => (.utf8, s)

end Charset

end PxdGen.Xml
