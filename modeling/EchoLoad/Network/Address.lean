import EchoLoad.Decimal.Shortest
import EchoLoad.Text.Fields

/-!
# Internet addresses

An address is four bytes or eight 16-bit groups. `IpAddress.ofText?` reads the written form of either,
and `IpAddress.text` writes it: groups in lower case without leading zeros, and the first of the longest
runs of two zero groups or more as `::`.
-/

namespace EchoLoad

inductive IpAddress
  | v4 (a b c d : UInt8)
  | v6 (a b c d e f g h : UInt16)
deriving DecidableEq, Repr

namespace IpAddress

/-! ## Reading -/

/-- The value of a hexadecimal digit. -/
def hexDigit? (c : Char) : Option Nat :=
  if '0' ≤ c ∧ c ≤ '9' then some (c.toNat - '0'.toNat)
  else if 'a' ≤ c ∧ c ≤ 'f' then some (c.toNat - 'a'.toNat + 10)
  else if 'A' ≤ c ∧ c ≤ 'F' then some (c.toNat - 'A'.toNat + 10)
  else none

/-- One to `width` digits in a base. -/
def digits? (base width : Nat) (cs : List Char) : Option Nat :=
  if cs.isEmpty || width < cs.length then none
  else
    match cs.mapM hexDigit? with
    | none => none
    | some values =>
      if values.all (· < base) then some (values.foldl (fun n v => base * n + v) 0) else none

/-- A byte in decimal digits, without superfluous zeros in front. -/
def byte? (cs : List Char) : Option UInt8 :=
  if 1 < cs.length && cs.head? = some '0' then none
  else
    match digits? 10 3 cs with
    | none => none
    | some n => if n < 256 then some (UInt8.ofNat n) else none

/-- Four bytes with points between them. -/
def fourBytes? (cs : List Char) : Option (UInt8 × UInt8 × UInt8 × UInt8) :=
  match (Text.fields '.' cs).mapM byte? with
  | some [a, b, c, d] => some (a, b, c, d)
  | _ => none

/-- One group, or four bytes in the place of the last two groups. -/
def lastGroups? (cs : List Char) : Option (List UInt16) :=
  match digits? 16 4 cs, fourBytes? cs with
  | some n, _ => some [UInt16.ofNat n]
  | none, some (a, b, c, d) =>
    some [256 * a.toUInt16 + b.toUInt16, 256 * c.toUInt16 + d.toUInt16]
  | none, none => none

/-- Groups with colons between them; the last field may be four bytes if `mixed`. -/
def groupFields? (mixed : Bool) : List (List Char) → Option (List UInt16)
  | [] => some []
  | [field] =>
    if mixed then lastGroups? field else (digits? 16 4 field).map fun n => [UInt16.ofNat n]
  | field :: rest =>
    match digits? 16 4 field, groupFields? mixed rest with
    | some n, some groups => some (UInt16.ofNat n :: groups)
    | _, _ => none

/-- Groups with colons between them, or nothing at all. -/
def groups? (mixed : Bool) (cs : List Char) : Option (List UInt16) :=
  if cs.isEmpty then some [] else groupFields? mixed (Text.fields ':' cs)

/-- The text before and after the first `::`. -/
def splitGap : List Char → Option (List Char × List Char)
  | [] => none
  | c :: rest =>
    match c, rest with
    | ':', ':' :: after => some ([], after)
    | _, _ => (splitGap rest).map fun (before, after) => (c :: before, after)

/-- The address of eight groups. -/
def ofGroups? : List UInt16 → Option IpAddress
  | [a, b, c, d, e, f, g, h] => some (v6 a b c d e f g h)
  | _ => none

/-- An address of eight groups, of which one or more zeros may be written as `::`. -/
def eightGroups? (cs : List Char) : Option IpAddress :=
  match splitGap cs with
  | none =>
    match groups? true cs with
    | some groups => ofGroups? groups
    | none => none
  | some (before, after) =>
    match groups? false before, groups? true after with
    | some front, some back =>
      if front.length + back.length < 8 then
        ofGroups? (front ++ List.replicate (8 - (front.length + back.length)) 0 ++ back)
      else none
    | _, _ => none

/-- Read an address. -/
def ofText? (text : String) : Option IpAddress :=
  match fourBytes? text.toList with
  | some (a, b, c, d) => some (v4 a b c d)
  | none => eightGroups? text.toList

/-! ## Writing -/

/-- Four bytes with points between them. -/
def bytesText (a b c d : UInt8) : String :=
  ".".intercalate ([a, b, c, d].map fun x => Decimal.natText x.toNat)

/-- The digits of a group. -/
def groupText (g : UInt16) : String := String.ofList (Nat.toDigits 16 g.toNat)

def groupsText (groups : List UInt16) : String := ":".intercalate (groups.map groupText)

/-- The length of the run of zeros at the front. -/
def zeroRun (groups : List UInt16) : Nat := (groups.takeWhile (· = 0)).length

/-- Where the first of the longest runs of zeros starts, and its length. -/
def longestZeroRun : List UInt16 → Nat × Nat
  | [] => (0, 0)
  | g :: rest =>
    let here := zeroRun (g :: rest)
    let (start, length) := longestZeroRun rest
    if length ≤ here then (0, here) else (start + 1, length)

/-- The groups of an address; that of four bytes has none. -/
def groups : IpAddress → List UInt16
  | v4 .. => []
  | v6 a b c d e f g h => [a, b, c, d, e, f, g, h]

/-- The written form of an address. -/
def text : IpAddress → String
  | v4 a b c d => bytesText a b c d
  | v6 0 0 0 0 0 0xffff g h =>
    "::ffff:" ++
      bytesText (UInt8.ofNat (g.toNat / 256)) (UInt8.ofNat (g.toNat % 256))
        (UInt8.ofNat (h.toNat / 256)) (UInt8.ofNat (h.toNat % 256))
  | address =>
    let (start, length) := longestZeroRun address.groups
    if 1 < length then
      groupsText (address.groups.take start) ++ "::" ++
        groupsText (address.groups.drop (start + length))
    else groupsText address.groups

/-- Whether an address has four bytes. -/
def isV4 : IpAddress → Bool
  | v4 .. => true
  | v6 .. => false

/-- Whether an address is one of four bytes, also in the form of eight groups. -/
def isMappedV4 : IpAddress → Bool
  | v4 .. => true
  | v6 a b c d e f _ _ => [a, b, c, d, e, f] = [0, 0, 0, 0, 0, 0xffff]

/-- Whether an address stands for a group of hosts and has eight groups itself. -/
def isGroup : IpAddress → Bool
  | v4 .. => false
  | v6 a .. => a >>> 8 = 0xff

/-- Whether an address of eight groups has a meaning only together with a network of the host. -/
def isScoped : IpAddress → Bool
  | v4 .. => false
  | v6 a .. => a &&& 0xffc0 = 0xfe80 || a &&& 0xff0f = 0xff01 || a &&& 0xff0f = 0xff02

/-- Whether an address stands for all addresses of a host. -/
def isUnspecified : IpAddress → Bool
  | v4 0 0 0 0 => true
  | v6 0 0 0 0 0 0 0 0 => true
  | _ => false

end IpAddress

/-- Where a socket is: an address and a port. -/
structure SocketAddress where
  ip : IpAddress
  port : UInt16
deriving DecidableEq, Repr

/-- The written form; an address of groups stands in brackets. -/
def SocketAddress.text (a : SocketAddress) : String :=
  let ip := if a.ip.isV4 then a.ip.text else "[" ++ a.ip.text ++ "]"
  ip ++ ":" ++ Decimal.natText a.port.toNat

end EchoLoad
