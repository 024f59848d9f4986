import Argmin.Lib.Text
import Mathlib.Data.List.DropRight
import Mathlib.Data.List.Sort

/-!
# The canonical request

The text that a SigV4 signature covers.  Strings are their UTF-8 bytes, on which the functions of
the source work; two strings are compared byte by byte.

Path escapes are kept as they were sent, query pairs are decoded and encoded again, and the values
of one header are joined in the order of the request.
-/

namespace Argmin.Auth

open Text (utf8)

abbrev Bytes := List UInt8

/-- The byte of an ASCII character. -/
def byte (c : Char) : UInt8 := UInt8.ofNat c.toNat

/-- Pieces with a separator between them. -/
def join (separator : UInt8) (pieces : List Bytes) : Bytes := [separator].intercalate pieces

/-! ### Percent encoding -/

def hexUpper (n : UInt8) : UInt8 := (utf8 "0123456789ABCDEF").getD n.toNat 0

def hexVal (b : UInt8) : Option UInt8 :=
  if byte '0' ≤ b ∧ b ≤ byte '9' then some (b - byte '0')
  else if byte 'a' ≤ b ∧ b ≤ byte 'f' then some (b - byte 'a' + 10)
  else if byte 'A' ≤ b ∧ b ≤ byte 'F' then some (b - byte 'A' + 10)
  else none

def isUnreserved (b : UInt8) : Bool :=
  (byte 'A' ≤ b && b ≤ byte 'Z') || (byte 'a' ≤ b && b ≤ byte 'z') ||
    (byte '0' ≤ b && b ≤ byte '9') || b == byte '-' || b == byte '_' || b == byte '.' ||
    b == byte '~'

/-- One byte of an encoded value. -/
def encodeByte (b : UInt8) : Bytes :=
  if isUnreserved b then [b] else [byte '%', hexUpper (b >>> 4), hexUpper (b &&& 0x0f)]

def uriEncode (value : Bytes) : Bytes := value.flatMap encodeByte

/-- One byte of a path that is not part of an escape. -/
def encodePathByte (b : UInt8) : Bytes := if b = byte '/' then [b] else encodeByte b

/-- A percent sign and two hexadecimal digits. -/
def isEscape (a b c : UInt8) : Bool := a == byte '%' && (hexVal b).isSome && (hexVal c).isSome

def uriEncodePath : Bytes → Bytes
  | a :: b :: c :: rest =>
    if isEscape a b c then a :: b :: c :: uriEncodePath rest
    else encodePathByte a ++ uriEncodePath (b :: c :: rest)
  | a :: rest => encodePathByte a ++ uriEncodePath rest
  | [] => []

/-- The bytes that `percent_decode_lossy` collects. -/
def percentDecodeBytes : Bytes → Bytes
  | a :: b :: c :: rest =>
    match a == byte '%', hexVal b, hexVal c with
    | true, some hi, some lo => (hi <<< 4 ||| lo) :: percentDecodeBytes rest
    | _, _, _ => a :: percentDecodeBytes (b :: c :: rest)
  | a :: rest => a :: percentDecodeBytes rest
  | [] => []

def isContinuation (b : Option UInt8) : Bool := b.any (· &&& 0xc0 == 0x80)

/-- Whether the second byte of a sequence of three or four bytes fits its first. -/
def secondFits (first : UInt8) (second : Option UInt8) : Bool :=
  second.any fun b =>
    if first == 0xe0 then 0xa0 ≤ b && b ≤ 0xbf
    else if first == 0xed then 0x80 ≤ b && b ≤ 0x9f
    else if first == 0xf0 then 0x90 ≤ b && b ≤ 0xbf
    else if first == 0xf4 then 0x80 ≤ b && b ≤ 0x8f
    else 0x80 ≤ b && b ≤ 0xbf

/-- How many bytes a sequence that starts with `first` takes, and whether it is well formed. -/
def utf8Sequence (first : UInt8) (rest : Bytes) : Nat × Bool :=
  if first < 0x80 then (1, true)
  else if 0xc2 ≤ first ∧ first ≤ 0xdf then
    if isContinuation rest[0]? then (2, true) else (1, false)
  else if 0xe0 ≤ first ∧ first ≤ 0xef then
    if secondFits first rest[0]? then
      if isContinuation rest[1]? then (3, true) else (2, false)
    else (1, false)
  else if 0xf0 ≤ first ∧ first ≤ 0xf4 then
    if secondFits first rest[0]? then
      if isContinuation rest[1]? then
        if isContinuation rest[2]? then (4, true) else (3, false)
      else (2, false)
    else (1, false)
  else (1, false)

/-- `String::from_utf8_lossy`: each ill-formed sequence becomes U+FFFD.  Every sequence takes at
least one byte, so `fuel` bytes are enough. -/
def fromUtf8LossyLoop : Nat → Bytes → Bytes
  | 0, _ => []
  | _, [] => []
  | fuel + 1, first :: rest =>
    let (taken, wellFormed) := utf8Sequence first rest
    (if wellFormed then (first :: rest).take taken else [0xef, 0xbf, 0xbd]) ++
      fromUtf8LossyLoop fuel ((first :: rest).drop taken)

def fromUtf8Lossy (bytes : Bytes) : Bytes := fromUtf8LossyLoop bytes.length bytes

/-- Percent-decode; `+` is not a space. -/
def percentDecode (s : Bytes) : Bytes :=
  if s.contains (byte '%') then fromUtf8Lossy (percentDecodeBytes s) else s

/-! ### Headers -/

/-- Runs of spaces become one space. -/
def collapseSpaces : Bool → Bytes → Bytes
  | _, [] => []
  | previousWasSpace, b :: rest =>
    if b = byte ' ' then
      if previousWasSpace then collapseSpaces true rest else b :: collapseSpaces true rest
    else b :: collapseSpaces false rest

def normalizeHeaderValue (value : Bytes) : Bytes :=
  collapseSpaces false ((value.dropWhile (· == byte ' ')).rdropWhile (· == byte ' '))

/-- The rest of the line of `name`, and the lines after it. -/
def headerLinesFrom (name : Bytes) : List (Bytes × Bytes) → Bytes
  | [] => [byte '\n']
  | (other, value) :: rest =>
    if other = name then byte ',' :: (normalizeHeaderValue value ++ headerLinesFrom name rest)
    else byte '\n' :: (other ++ byte ':' :: (normalizeHeaderValue value ++
      headerLinesFrom other rest))

def headerLines : List (Bytes × Bytes) → Bytes
  | [] => []
  | (name, value) :: rest =>
    name ++ byte ':' :: (normalizeHeaderValue value ++ headerLinesFrom name rest)

/-- Headers sorted by name; the sort is stable, so values of one name keep their order. -/
def canonicalHeaders (headers : List (Bytes × Bytes)) : Bytes :=
  headerLines (headers.insertionSort fun a b => a.1 ≤ b.1)

/-! ### The query -/

/-- `splitn(2, '=')`; a missing value is empty. -/
def splitPair (pair : Bytes) : Bytes × Bytes :=
  (pair.takeWhile (· != byte '='), (pair.dropWhile (· != byte '=')).drop 1)

/-- The pairs of a query string as they were sent. -/
def queryPairs (query : Bytes) : List (Bytes × Bytes) :=
  ((query.splitOn (byte '&')).filter (· ≠ [])).map splitPair

def canonicalQueryString (query : Bytes) : Bytes :=
  if query = [] then []
  else
    let pairs := (queryPairs query).map fun pair =>
      (uriEncode (percentDecode pair.1), uriEncode (percentDecode pair.2))
    let sorted := pairs.insertionSort fun a b => a.1 < b.1 ∨ a.1 = b.1 ∧ a.2 ≤ b.2
    join (byte '&') (sorted.map fun pair => pair.1 ++ byte '=' :: pair.2)

/-! ### The request -/

def canonicalRequest (method uri query headers signedHeaders bodyHash : Bytes) : Bytes :=
  method ++ byte '\n' :: (uriEncodePath uri ++ byte '\n' :: (query ++ byte '\n' ::
    (headers ++ byte '\n' :: (signedHeaders ++ byte '\n' :: bodyHash))))

def stringToSign (timestamp scope canonicalRequestHash : Bytes) : Bytes :=
  utf8 "AWS4-HMAC-SHA256\n" ++ timestamp ++ byte '\n' :: (scope ++ byte '\n' ::
    canonicalRequestHash)

/-! ### Dates -/

def isLeap (year : Nat) : Bool := year % 4 == 0 && (year % 100 != 0 || year % 400 == 0)

/-- A number of ASCII digits, absent when it does not fit into 32 bits. -/
def parseFixedWidthU32Ascii (bytes : Bytes) : Option Nat :=
  bytes.foldlM (fun value b =>
    if byte '0' ≤ b ∧ b ≤ byte '9' then
      let next := value * 10 + (b - byte '0').toNat
      if next < 2 ^ 32 then some next else none
    else none) 0

/-- Days from 1970-01-01 to a date. -/
def daysSinceEpoch (year month day : Nat) : Option Nat :=
  let monthDays := [0, 31, 59, 90, 120, 151, 181, 212, 243, 273, 304, 334]
  let daysPerMonth := [31, 28, 31, 30, 31, 30, 31, 31, 30, 31, 30, 31]
  if year < 1970 then none
  else if ¬(1 ≤ month ∧ month ≤ 12) then none
  else
    let maxDay := daysPerMonth.getD (month - 1) 0 + if month = 2 ∧ isLeap year then 1 else 0
    if day = 0 ∨ maxDay < day then none
    else
      let years := (List.range' 1970 (year - 1970)).foldl
        (fun days y => days + if isLeap y then 366 else 365) 0
      some (years + monthDays.getD (month - 1) 0 + (if 2 < month ∧ isLeap year then 1 else 0) +
        (day - 1))

def parseYyyymmddAscii (bytes : Bytes) : Option Nat :=
  if bytes.length ≠ 8 then none
  else do
    let year ← parseFixedWidthU32Ascii (bytes.take 4)
    let month ← parseFixedWidthU32Ascii ((bytes.drop 4).take 2)
    let day ← parseFixedWidthU32Ascii (bytes.drop 6)
    daysSinceEpoch year month day

def parseAmzDateStamp (dateStamp : Bytes) : Option Nat := parseYyyymmddAscii dateStamp

/-- Seconds since the epoch of a timestamp such as `20130524T000000Z`. -/
def parseAmzDate (ts : Bytes) : Option Nat :=
  if ts.length ≠ 16 ∨ ts[8]? ≠ some (byte 'T') ∨ ts[15]? ≠ some (byte 'Z') then none
  else do
    let days ← parseYyyymmddAscii (ts.take 8)
    let hour ← parseFixedWidthU32Ascii ((ts.drop 9).take 2)
    let min ← parseFixedWidthU32Ascii ((ts.drop 11).take 2)
    let sec ← parseFixedWidthU32Ascii ((ts.drop 13).take 2)
    if 23 < hour ∨ 59 < min ∨ 59 < sec then none
    else some (days * 86400 + hour * 3600 + min * 60 + sec)

def amzDateMatchesDateStamp (timestamp dateStamp : Bytes) : Bool :=
  (parseAmzDate timestamp).isSome && (parseAmzDateStamp dateStamp).isSome &&
    (8 ≤ timestamp.length && timestamp.take 8 == dateStamp)

end Argmin.Auth
