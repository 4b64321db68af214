/-!
Bytes read as UTF-8 text where every byte sequence has to give some text.

A sequence that starts no character, or breaks off before its character is complete, is read as the
replacement character U+FFFD. What is replaced at once is the longest start of a character that the
bytes hold, so a broken character of three bytes is replaced once and a stray byte by itself.
-/

namespace NetplanEditor.Text

/-- Stands for bytes that are no text. -/
def replacement : Char := '\uFFFD'

def isContinuation (b : UInt8) : Bool := 0x80 ≤ b && b ≤ 0xBF

/-- The second byte fits a first byte of a character of three bytes: it encodes neither a shorter
character nor a surrogate. -/
def secondOfThree (first second : UInt8) : Bool :=
  if first == 0xE0 then 0xA0 ≤ second && second ≤ 0xBF
  else if first == 0xED then 0x80 ≤ second && second ≤ 0x9F
  else isContinuation second

/-- The second byte fits a first byte of a character of four bytes: the character is neither a
shorter one nor beyond U+10FFFF. -/
def secondOfFour (first second : UInt8) : Bool :=
  if first == 0xF0 then 0x90 ≤ second && second ≤ 0xBF
  else if first == 0xF4 then 0x80 ≤ second && second ≤ 0x8F
  else isContinuation second

/-- The bits that a continuation byte adds to a code point. -/
def continued (code : Nat) (b : UInt8) : Nat := code * 64 + (b.toNat - 0x80)

/-- The text of the bytes, with the replacement character wherever they are no text. -/
def lossyChars : List UInt8 → List Char
  | [] => []
  | a :: as =>
    if a < 0x80 then Char.ofNat a.toNat :: lossyChars as
    else if 0xC2 ≤ a && a ≤ 0xDF then
      match as with
      | b :: bs =>
        if isContinuation b then Char.ofNat (continued (a.toNat - 0xC0) b) :: lossyChars bs
        else replacement :: lossyChars (b :: bs)
      | [] => [replacement]
    else if 0xE0 ≤ a && a ≤ 0xEF then
      match as with
      | b :: bs =>
        if secondOfThree a b then
          match bs with
          | c :: cs =>
            if isContinuation c then
              Char.ofNat (continued (continued (a.toNat - 0xE0) b) c) :: lossyChars cs
            else replacement :: lossyChars (c :: cs)
          | [] => [replacement]
        else replacement :: lossyChars (b :: bs)
      | [] => [replacement]
    else if 0xF0 ≤ a && a ≤ 0xF4 then
      match as with
      | b :: bs =>
        if secondOfFour a b then
          match bs with
          | c :: cs =>
            if isContinuation c then
              match cs with
              | d :: ds =>
                if isContinuation d then
                  Char.ofNat (continued (continued (continued (a.toNat - 0xF0) b) c) d) ::
                    lossyChars ds
                else replacement :: lossyChars (d :: ds)
              | [] => [replacement]
            else replacement :: lossyChars (c :: cs)
          | [] => [replacement]
        else replacement :: lossyChars (b :: bs)
      | [] => [replacement]
    else replacement :: lossyChars as

/-- The text of the bytes, with the replacement character wherever they are no text. -/
def lossy (bytes : ByteArray) : String := String.ofList (lossyChars bytes.toList)

end NetplanEditor.Text
