import FleetDispatch.Text.Utf8

namespace FleetDispatch

/-- Octets, each as the character that has its number. -/
abbrev Octets := List Char

namespace Octets

def le : Octets → Octets → Bool
  | [], _ => true
  | _ :: _, [] => false
  | a :: as, b :: bs => a.toNat < b.toNat || (a == b && le as bs)

def ofString (s : String) : Octets :=
  s.toUTF8.toList.map fun b => Char.ofNat b.toNat

/-- The text that octets are in UTF-8, with a replacement for those that are none. -/
def text (cs : Octets) : String :=
  String.ofList (Text.Utf8.decodeLossy (cs.map Char.toNat))

def text? (cs : Octets) : Option String :=
  String.fromUTF8? (ByteArray.mk (cs.map fun c => UInt8.ofNat c.toNat).toArray)

end Octets

end FleetDispatch
