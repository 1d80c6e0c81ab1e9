import Zerogw.Basic
import Zerogw.Library.Buffer

/-!
# Log lines

The four functions of `log.c` that write a line to the log. Each puts the line together in an array
on the stack, adding up the lengths that the printing functions return, which are those of the texts
before anything is cut off. A line is passed to `write` with its newline.

The text of the date, level, source file and line number is a parameter, and so are the text that
the format and its arguments make, and what the arrays hold before anything is stored in them.
-/

namespace Zerogw.Logging

open Execution

/-- `sizeof(buf)` and `sizeof(buf2)` -/
def bufSize : Nat := 4096

/-- `ERRLEVEL` -/
def errLevel : Nat := 2

def newline : UInt8 := 10

/-! ### The C library -/

/-- What a printing function returns: the length of the whole text, or -1 if that is no `int`. -/
def printed (text : Bytes) : Int := if text.length < 2 ^ 31 then text.length else -1

/-- `snprintf(buf + idx, size, …)`, and `vsnprintf` likewise. No more than `size` bytes are stored,
the last of which is the terminator. -/
def snprintf (idx : Int) (size : Nat) (text buf : Bytes) : Except Fault (Bytes × Int) := do
  if size = 0 then .ok (buf, printed text)
  else
    let buf ← Buffer.storeAll .outOfBounds idx (text.take (size - 1) ++ [0]) buf
    .ok (buf, printed text)

/-- `strerror_r(errno, buf + idx, size)`, where `text` is the text of the error. -/
def strerrorR (idx : Int) (size : Nat) (text buf : Bytes) : Except Fault Bytes :=
  Buffer.storeAll .outOfBounds idx ((text.takeWhile (· ≠ 0)).take (size - 1) ++ [0]) buf

/-- `strlen(buf + idx)` -/
def strlen (idx : Int) (buf : Bytes) : Except Fault Int :=
  match (buf.drop idx.toNat).findIdx? (· = 0) with
  | some n => .ok n
  | none => .error .outOfBounds

/-- Decimal digits, with a sign if needed: `%ld`. -/
def decimal (n : Int) : Bytes :=
  (if n < 0 then [45] else []) ++ (Nat.toDigits 10 n.natAbs).map fun c => UInt8.ofNat c.toNat

/-! ### The log functions -/

/-- What they all begin with: the date and the place, and behind it the message. -/
def printLine (stamp msg buf : Bytes) : Except Fault (Bytes × Int) := do
  let (buf, idx) ← snprintf 0 bufSize stamp buf
  let (buf, n) ← snprintf idx (toSize (bufSize - idx)) msg buf
  .ok (buf, toInt (idx + n))

/-- What they all end with: the newline, and `write`. -/
def writeLine (idx : Int) (buf : Bytes) : Except Fault Bytes := do
  let buf ← Buffer.store .outOfBounds idx newline buf
  if toSize (idx + 1) ≤ buf.length then .ok (buf.take (toSize (idx + 1))) else .error .outOfBounds

/-- What is passed to `write`, and whether the server is aborted then. -/
structure Logged where
  line : Bytes
  aborts : Bool

/-- `logmsg` -/
def logmsg (level : Nat) (stamp msg buf : Bytes) : Except Fault Logged := do
  let (buf, idx) ← printLine stamp msg buf
  let line ← writeLine (min idx 4094) buf
  .ok ⟨line, level ≤ errLevel⟩

/-- The text of the error behind the message, in `logstd`. -/
def printError (error : Bytes) (idx : Int) (buf : Bytes) : Except Fault (Bytes × Int) := do
  if idx < 4093 then
    let buf ← Buffer.store .outOfBounds idx 58 buf
    let buf ← Buffer.store .outOfBounds (idx + 1) 32 buf
    let idx := idx + 2
    let buf ← strerrorR idx (toSize (bufSize - idx)) error buf
    let n ← strlen idx buf
    .ok (buf, idx + n)
  else .ok (buf, idx)

/-- `logstd`; `error` is the text that belongs to `errno`. -/
def logstd (level : Nat) (stamp msg error buf : Bytes) : Except Fault Logged := do
  let (buf, idx) ← printLine stamp msg buf
  let (buf, idx) ← printError error idx buf
  let line ← writeLine (min idx 4094) buf
  .ok ⟨line, level ≤ errLevel⟩

/-- The array of times of a warning: `WT_LASTPRINT`, `WT_LASTCALL`, `WT_COUNTER`. -/
structure WarnTimes where
  lastprint : Int
  lastcall : Int
  counter : Int

/-- `tt[WT_COUNTER] ++` -/
def WarnTimes.counted (tt : WarnTimes) : WarnTimes :=
  { tt with counter := (tt.counter + 1).bmod (2 ^ 64) }

def repeated (n : Int) : Bytes := str " (repeated " ++ decimal n ++ str " times)"

/-- The number of repetitions behind the message, in `timedwarn`. -/
def printRepeated (tt : WarnTimes) (tm timeout idx : Int) (buf : Bytes) :
    Except Fault (Bytes × Int) := do
  if tt.lastcall > tm - timeout then
    let (buf, n) ← snprintf idx (toSize (bufSize - idx)) (repeated tt.counter) buf
    .ok (buf, idx + n)
  else .ok (buf, idx)

/-- `timedwarn` at the time `tm`: what is passed to `write`, if anything is, and the times
afterwards. Warnings do not abort. -/
def timedwarn (tt : WarnTimes) (tm timeout : Int) (stamp msg buf : Bytes) :
    Except Fault (Option Bytes × WarnTimes) := do
  let tt := tt.counted
  if tt.lastprint < tm - timeout then
    let (buf, idx) ← printLine stamp msg buf
    let (buf, idx) ← printRepeated tt tm timeout (min idx 4094) buf
    let line ← writeLine idx buf
    .ok (some line, ⟨tm, tm, 0⟩)
  else .ok (none, { tt with lastcall := tm })

/-! ### User data -/

/-- The value of a `char`, which is signed. -/
def toChar (c : UInt8) : Int := c.toInt8.toInt

/-- `isprint` in the C locale -/
def isprint (c : Int) : Bool := 32 ≤ c ∧ c ≤ 126

/-- The digits `hexchar`, and nothing around them. -/
def hexchar (i : Int) : Except Fault UInt8 :=
  match (str "0123456789abcdef")[i.toNat]? with
  | some c => if 0 ≤ i then .ok c else .error .outOfBounds
  | none => .error .outOfBounds

/-- What one round of the loop of `logudata` stores for a character. `digit` reads `hexchar`. -/
def escape (digit : Int → Except Fault UInt8) (c : UInt8) : Except Fault Bytes := do
  if isprint (toChar c) then
    if c = 92 then .ok [92, 92]
    else if c = 34 then .ok [92, 34]
    else .ok [c]
  else if c = 13 then .ok [92, 114]
  else if c = 10 then .ok [92, 110]
  else
    let high ← digit (toChar c >>> (4 : Nat))
    let low ← digit (toChar c % 16)
    .ok [92, 120, high, low]

/-- The loop: `buf2`, and the place behind the last character stored. -/
def escapeLoop (digit : Int → Except Fault UInt8) (cur : Int) :
    Bytes → Bytes → Except Fault (Bytes × Int)
  | [], buf2 => .ok (buf2, cur)
  | c :: cs, buf2 =>
    if cur < bufSize - 6 then do
      let out ← escape digit c
      let buf2 ← Buffer.storeAll .outOfBounds cur out buf2
      escapeLoop digit (cur + out.length) cs buf2
    else .ok (buf2, cur)

/-- `logudata` -/
def logudata (digit : Int → Except Fault UInt8) (level : Nat) (stamp msg buf buf2 : Bytes) :
    Except Fault Logged := do
  let (buf, idx) ← printLine stamp msg buf
  let (buf2, cur) ← escapeLoop digit 0 (buf.take (min idx 4094).toNat) buf2
  let line ← writeLine cur buf2
  .ok ⟨line, level ≤ errLevel⟩

end Zerogw.Logging
