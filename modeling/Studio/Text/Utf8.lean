/-!
# Decoding UTF-8

Bytes become characters through a machine that reads one byte at a time. A byte that cannot continue
the character begun before it ends that character as a replacement character and is then read
afresh, so every longest broken beginning of a character becomes one replacement. `decode_append`
says that decoding may be cut anywhere: the machine's state carries what a cut leaves open.
-/

namespace Studio.Text.Utf8

/-- What the bytes read so far leave open: nothing, or a character of which `remaining` bytes are
missing, the next of them between `least` and `most`. -/
inductive Pending where
  | none
  | char (code remaining : Nat) (least most : Nat)
deriving DecidableEq, Repr

/-- The character that stands for broken bytes. -/
def replacement : Char := '\uFFFD'

/-- Read a byte that begins a character. -/
def begin (byte : Nat) : List Char × Pending :=
  if byte < 0x80 then ([Char.ofNat byte], .none)
  else if 0xC2 ≤ byte && byte ≤ 0xDF then ([], .char (byte - 0xC0) 1 0x80 0xBF)
  else if byte == 0xE0 then ([], .char 0 2 0xA0 0xBF)
  else if byte == 0xED then ([], .char 0xD 2 0x80 0x9F)
  else if 0xE1 ≤ byte && byte ≤ 0xEF then ([], .char (byte - 0xE0) 2 0x80 0xBF)
  else if byte == 0xF0 then ([], .char 0 3 0x90 0xBF)
  else if 0xF1 ≤ byte && byte ≤ 0xF3 then ([], .char (byte - 0xF0) 3 0x80 0xBF)
  else if byte == 0xF4 then ([], .char 4 3 0x80 0x8F)
  else ([replacement], .none)

/-- Read one byte: the characters it completes, and what stays open. -/
def step (pending : Pending) (byte : Nat) : List Char × Pending :=
  match pending with
  | .none => begin byte
  | .char code remaining least most =>
    if least ≤ byte && byte ≤ most then
      let code := code * 64 + (byte - 0x80)
      if remaining ≤ 1 then ([Char.ofNat code], .none)
      else ([], .char code (remaining - 1) 0x80 0xBF)
    else
      let (chars, next) := begin byte
      (replacement :: chars, next)

/-- Read bytes one after another. -/
def run (pending : Pending) : List UInt8 → List Char × Pending
  | [] => ([], pending)
  | byte :: bytes =>
    let (chars, next) := step pending byte.toNat
    let (more, last) := run next bytes
    (chars ++ more, last)

/-- The characters that the end of the bytes adds. -/
def close : Pending → List Char
  | .none => []
  | .char .. => [replacement]

/-- The characters of a byte sequence, broken parts replaced. -/
def decode (bytes : List UInt8) : List Char :=
  let (chars, pending) := run .none bytes
  chars ++ close pending

/-- Reading may be cut anywhere. -/
theorem run_append (pending : Pending) (first second : List UInt8) :
    run pending (first ++ second) =
      ((run pending first).1 ++ (run (run pending first).2 second).1,
        (run (run pending first).2 second).2) := by
  induction first generalizing pending with
  | nil => simp [run]
  | cons byte bytes ih => simp [run, ih]

/-- Decoding may be cut anywhere: the second part goes on from what the first leaves open. -/
theorem decode_append (first second : List UInt8) :
    decode (first ++ second) =
      (run .none first).1 ++ (run (run .none first).2 second).1 ++
        close (run (run .none first).2 second).2 := by
  simp [decode, run_append]

end Studio.Text.Utf8
