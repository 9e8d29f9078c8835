/-! # UTF-8 decoding

Bytes decode to characters by the UTF-8 rules: a lead byte fixes the length of its sequence,
continuation bytes are `0x80`–`0xBF`, and overlong forms, surrogates and values above
U+10FFFF are refused. A failure reports how many bytes before it were valid.
-/
namespace Phenotyping.Text
set_option autoImplicit false

def isContinuation (b : UInt8) : Bool := 0x80 ≤ b && b ≤ 0xBF

def payload (b : UInt8) : Nat := b.toNat % 64

/-- Decodes bytes, given the `valid` bytes already decoded; on failure, the count of valid
bytes before the first bad sequence. -/
def decodeFrom (valid : Nat) : List UInt8 → Except Nat (List Char)
  | [] => .ok []
  | b :: rest =>
    if b < 0x80 then (decodeFrom (valid + 1) rest).map (Char.ofNat b.toNat :: ·)
    else if 0xC2 ≤ b && b ≤ 0xDF then
      match rest with
      | c :: rest' =>
        if isContinuation c then
          (decodeFrom (valid + 2) rest').map (Char.ofNat ((b.toNat % 32) * 64 + payload c) :: ·)
        else .error valid
      | [] => .error valid
    else if 0xE0 ≤ b && b ≤ 0xEF then
      match rest with
      | c1 :: c2 :: rest' =>
        let lo : UInt8 := if b = 0xE0 then 0xA0 else 0x80
        let hi : UInt8 := if b = 0xED then 0x9F else 0xBF
        if lo ≤ c1 && c1 ≤ hi && isContinuation c2 then
          (decodeFrom (valid + 3) rest').map
            (Char.ofNat ((b.toNat % 16) * 4096 + payload c1 * 64 + payload c2) :: ·)
        else .error valid
      | _ => .error valid
    else if 0xF0 ≤ b && b ≤ 0xF4 then
      match rest with
      | c1 :: c2 :: c3 :: rest' =>
        let lo : UInt8 := if b = 0xF0 then 0x90 else 0x80
        let hi : UInt8 := if b = 0xF4 then 0x8F else 0xBF
        if lo ≤ c1 && c1 ≤ hi && isContinuation c2 && isContinuation c3 then
          (decodeFrom (valid + 4) rest').map
            (Char.ofNat ((b.toNat % 8) * 262144 + payload c1 * 4096 + payload c2 * 64 + payload c3) :: ·)
        else .error valid
      | _ => .error valid
    else .error valid

/-- Decodes bytes to a text, or gives the length of the valid prefix. -/
def decodeUtf8 (bs : List UInt8) : Except Nat String := (decodeFrom 0 bs).map String.ofList

end Phenotyping.Text
