import PeerDiscovery.Bytes

/-!
# UTF-8

The strict reading accepts well-formed UTF-8 only. The lenient one never fails: it puts U+FFFD in
place of each maximal ill-formed part, that is of the longest start of a character that the octets
hold at that point, or of one octet where no character can start.
-/

namespace PeerDiscovery.Utf8

/-- The UTF-8 octets of a text. -/
def encode (text : String) : Bytes := text.toByteArray.data.toList

/-- The text that well-formed UTF-8 spells. -/
def decode? (bytes : Bytes) : Option String := String.fromUTF8? ⟨bytes.toArray⟩

theorem decode?_encode (text : String) : decode? (encode text) = some text := by
  simp [decode?, encode, String.fromUTF8?, String.fromUTF8, text.isValidUTF8]

theorem encode_of_decode? {bytes : Bytes} {text : String} (read : decode? bytes = some text) :
    encode text = bytes := by
  simp only [decode?, String.fromUTF8?] at read
  split at read
  · obtain rfl := Option.some.inj read
    simp [encode, String.fromUTF8]
  · cases read

/-! ## Lenient reading -/

/-- What may follow a lead octet: how many octets, and the bounds of the first of them. The others
range over the continuation octets. -/
structure Tail where
  count : Nat
  low : UInt8
  high : UInt8

/-- The tail of each lead octet of a character of more than one octet. The narrower bounds shut out
overlong forms, surrogates and numbers above U+10FFFF. -/
def tail? (lead : UInt8) : Option Tail :=
  if lead < 0xC2 then none
  else if lead ≤ 0xDF then some ⟨1, 0x80, 0xBF⟩
  else if lead = 0xE0 then some ⟨2, 0xA0, 0xBF⟩
  else if lead = 0xED then some ⟨2, 0x80, 0x9F⟩
  else if lead ≤ 0xEF then some ⟨2, 0x80, 0xBF⟩
  else if lead = 0xF0 then some ⟨3, 0x90, 0xBF⟩
  else if lead ≤ 0xF3 then some ⟨3, 0x80, 0xBF⟩
  else if lead = 0xF4 then some ⟨3, 0x80, 0x8F⟩
  else none

/-- Octets that continue a character. -/
def isContinuation (octet : UInt8) : Bool := 0x80 ≤ octet && octet ≤ 0xBF

/-- The character whose lead octet announces `following.length` octets more. -/
def assemble (lead : UInt8) (following : Bytes) : Char :=
  Char.ofNat <| following.foldl (fun value octet => 64 * value + octet.toNat % 64)
    (lead.toNat % (64 >>> following.length))

/-- The character that stands for an ill-formed part. -/
def replacement : Char := Char.ofNat 0xFFFD

/-- Reads one character, or one maximal ill-formed part, that starts with `lead`; the number says
how many octets of `rest` belong to it. -/
def step (lead : UInt8) (rest : Bytes) : Char × Nat :=
  if lead < 0x80 then (Char.ofNat lead.toNat, 0)
  else match tail? lead, rest with
    | some expected, first :: more =>
      if expected.low ≤ first ∧ first ≤ expected.high then
        let following := first :: (more.take (expected.count - 1)).takeWhile isContinuation
        if following.length = expected.count then (assemble lead following, expected.count)
        else (replacement, following.length)
      else (replacement, 0)
    | _, _ => (replacement, 0)

/-- The characters of an octet string, each maximal ill-formed part replaced. -/
def decodeLenientChars : Bytes → List Char
  | [] => []
  | lead :: rest =>
    let (c, count) := step lead rest
    c :: decodeLenientChars (rest.drop count)
termination_by bytes => bytes.length
decreasing_by simp only [List.length_drop, List.length_cons]; omega

/-- The lenient reading as a text. -/
def decodeLenient (bytes : Bytes) : String := String.ofList (decodeLenientChars bytes)

end PeerDiscovery.Utf8
