/-!
Characters from bytes in UTF-8. Bytes that encode no character are cut into pieces, each the longest
start of a character that stands there or else a single byte; a lenient reader shows one replacement
character for a piece.
-/

namespace FilterQuery.Text

def isContinuation (byte : UInt8) : Bool :=
  0x80 ≤ byte && byte ≤ 0xBF

-- The second byte is held to a narrower range where a wider one would give a surrogate, a code
-- point past the last, or a longer form than needed.
def isSecondOfThree (lead second : UInt8) : Bool :=
  (lead == 0xE0 && 0xA0 ≤ second && second ≤ 0xBF) ||
  (0xE1 ≤ lead && lead ≤ 0xEC && isContinuation second) ||
  (lead == 0xED && 0x80 ≤ second && second ≤ 0x9F) ||
  (0xEE ≤ lead && lead ≤ 0xEF && isContinuation second)

def isSecondOfFour (lead second : UInt8) : Bool :=
  (lead == 0xF0 && 0x90 ≤ second && second ≤ 0xBF) ||
  (0xF1 ≤ lead && lead ≤ 0xF3 && isContinuation second) ||
  (lead == 0xF4 && 0x80 ≤ second && second ≤ 0x8F)

def payload (byte : UInt8) : Nat :=
  byte.toNat % 64

/-- The characters of bytes, and nothing for each piece that is none. -/
def utf8Pieces : List UInt8 → List (Option Char)
  | [] => []
  | lead :: rest =>
      if lead < 0x80 then some (Char.ofNat lead.toNat) :: utf8Pieces rest
      else match rest with
        | [] => [none]
        | second :: afterSecond =>
            if 0xC2 ≤ lead && lead ≤ 0xDF && isContinuation second then
              some (Char.ofNat (lead.toNat % 32 * 64 + payload second)) :: utf8Pieces afterSecond
            else if isSecondOfThree lead second then
              match afterSecond with
              | [] => [none]
              | third :: afterThird =>
                  if isContinuation third then
                    some (Char.ofNat
                      ((lead.toNat % 16 * 64 + payload second) * 64 + payload third)) ::
                      utf8Pieces afterThird
                  else none :: utf8Pieces (third :: afterThird)
            else if isSecondOfFour lead second then
              match afterSecond with
              | [] => [none]
              | third :: afterThird =>
                  if isContinuation third then
                    match afterThird with
                    | [] => [none]
                    | fourth :: afterFourth =>
                        if isContinuation fourth then
                          some (Char.ofNat (((lead.toNat % 8 * 64 + payload second) * 64 +
                            payload third) * 64 + payload fourth)) :: utf8Pieces afterFourth
                        else none :: utf8Pieces (fourth :: afterFourth)
                  else none :: utf8Pieces (third :: afterThird)
            else none :: utf8Pieces (second :: afterSecond)

def utf8Lenient (bytes : List UInt8) : String :=
  String.ofList ((utf8Pieces bytes).map (·.getD '\ufffd'))

def utf8Strict? (bytes : List UInt8) : Option String :=
  ((utf8Pieces bytes).mapM id).map String.ofList

end FilterQuery.Text
