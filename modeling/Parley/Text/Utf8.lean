/-!
# UTF-8, with and without errors

`decode` reads a list of bytes as UTF-8 and answers with one entry per character: `some c` for a
well-formed sequence and `none` for each ill-formed piece.  A piece is the longest beginning of a
well-formed sequence that cannot be continued, or else one byte, as the Unicode standard recommends
for replacement.  `decodeLossy` puts the replacement character for each such piece, `decode?`
refuses a text that has any.

The reader is a machine that takes one byte at a time: between two bytes it knows the sequence it is
in, as the value so far, how many bytes are missing and which range the next of them must lie in.
-/

namespace Parley.Text.Utf8

/-! ### The machine -/

/-- A sequence that has begun and is not finished. -/
structure Sequence where
  /-- The bits read so far. -/
  value : Nat
  /-- How many bytes are missing; at least one. -/
  missing : Nat
  /-- The least byte that may come next. -/
  low : UInt8
  /-- The greatest byte that may come next. -/
  high : UInt8

/-- The machine between two bytes. -/
structure State where
  /-- What has been read, the last first. -/
  read : List (Option Char) := []
  /-- The sequence under way. -/
  sequence? : Option Sequence := none

/-- What the first byte of a sequence promises; none for a byte that begins no sequence. -/
def Sequence.ofLead? (b : UInt8) : Option Sequence :=
  if 0xC2 ≤ b && b ≤ 0xDF then some ⟨(b &&& 0x1F).toNat, 1, 0x80, 0xBF⟩
  else if b == 0xE0 then some ⟨0, 2, 0xA0, 0xBF⟩
  else if b == 0xED then some ⟨(b &&& 0x0F).toNat, 2, 0x80, 0x9F⟩
  else if 0xE1 ≤ b && b ≤ 0xEF then some ⟨(b &&& 0x0F).toNat, 2, 0x80, 0xBF⟩
  else if b == 0xF0 then some ⟨0, 3, 0x90, 0xBF⟩
  else if b == 0xF4 then some ⟨(b &&& 0x07).toNat, 3, 0x80, 0x8F⟩
  else if 0xF1 ≤ b && b ≤ 0xF3 then some ⟨(b &&& 0x07).toNat, 3, 0x80, 0xBF⟩
  else none

/-- Take a byte with no sequence under way. -/
def State.start (read : List (Option Char)) (b : UInt8) : State :=
  if b < 0x80 then { read := some (Char.ofNat b.toNat) :: read }
  else match Sequence.ofLead? b with
    | some sequence => { read, sequence? := some sequence }
    | none => { read := none :: read }

/-- Take one byte.  A byte that cannot continue the sequence under way closes it as ill-formed and
is then taken afresh. -/
def State.step (s : State) (b : UInt8) : State :=
  match s.sequence? with
  | none => State.start s.read b
  | some q =>
    if q.low ≤ b && b ≤ q.high then
      let value := q.value * 64 + (b &&& 0x3F).toNat
      if q.missing == 1 then { read := some (Char.ofNat value) :: s.read }
      else { read := s.read, sequence? := some ⟨value, q.missing - 1, 0x80, 0xBF⟩ }
    else State.start (none :: s.read) b

/-- What has been read once the bytes are over: a sequence left open is ill-formed. -/
def State.finish (s : State) : List (Option Char) :=
  match s.sequence? with
  | none => s.read.reverse
  | some _ => (none :: s.read).reverse

/-! ### Reading a list of bytes -/

/-- The characters that a list of bytes spells, with `none` for each ill-formed piece. -/
def decode (bytes : List UInt8) : List (Option Char) := (bytes.foldl State.step {}).finish

/-- The replacement character. -/
def replacement : Char := Char.ofNat 0xFFFD

/-- The text that a list of bytes spells, with the replacement character for each ill-formed
piece. -/
def decodeLossy (bytes : List UInt8) : String :=
  String.ofList ((decode bytes).map (·.getD replacement))

/-- The text that a list of bytes spells, if all of it is well-formed. -/
def decode? (bytes : List UInt8) : Option String :=
  ((decode bytes).mapM id).map String.ofList

/-! ### Writing -/

/-- The UTF-8 bytes of a text. -/
def encode (s : String) : List UInt8 := s.toUTF8.toList

end Parley.Text.Utf8
