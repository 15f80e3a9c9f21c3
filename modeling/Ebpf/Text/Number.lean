/-! # Written numbers

Hexadecimal is lower case behind `0x`; offsets always carry their sign; positions are
padded with zeros.
-/

namespace Ebpf.Text

def digits (base n : Nat) : String := String.ofList (Nat.toDigits base n)

def padded (width n : Nat) : String :=
  String.ofList ((Nat.toDigits 10 n).leftpad width '0')

def hex (n : Nat) : String := "0x" ++ digits 16 n

def hexByte (b : UInt8) : String :=
  "0x" ++ String.ofList ((Nat.toDigits 16 b.toNat).leftpad 2 '0')

/-- A decimal number with its sign, `+` included. -/
def signed (i : Int) : String := if i < 0 then toString i else "+" ++ toString i

def alignLeft (width : Nat) (text : String) : String :=
  text ++ String.ofList (List.replicate (width - text.length) ' ')

def alignRight (width : Nat) (text : String) : String :=
  String.ofList (List.replicate (width - text.length) ' ') ++ text

end Ebpf.Text
