import RealtimeAsr.Vad.FileCut

/-!
This module contains the reading of frames in `vad/src/simple_vad.c` and the loop of its driver. How the
host puts the two bytes of an item together is a parameter.
-/

namespace SimpleVad

/--
A file that is read as bytes. It may be that the reading fails at a position.
-/
structure ByteFile where
  bytes : List UInt8
  pos : Nat := 0
  failsAt : Option Nat := none
  eof : Bool := false
  error : Int := 0

variable (int16 : UInt8 → UInt8 → Int16)

def items : List UInt8 → List Int16
  | a :: b :: rest => int16 a b :: items rest
  | _ => []

namespace ByteFile

/--
Whole items only; a part of an item at the end is consumed.
-/
def fread (fp : ByteFile) (num : Nat) : List Int16 × ByteFile :=
  let readable := min (fp.failsAt.getD fp.bytes.length) fp.bytes.length
  let got := min (2 * num) (readable - fp.pos)
  let output := items int16 ((fp.bytes.drop fp.pos).take got)
  let fp := { fp with pos := fp.pos + got }
  if got = 2 * num then
    (output, fp)
  else if fp.failsAt.isSome then
    (output, { fp with error := 1 })
  else
    (output, { fp with eof := true })

end ByteFile

def checkEndFile (fp : ByteFile) : Int :=
  if fp.eof then
    0
  else
    fp.error

def readInt16Bytes (fp : ByteFile) (output : List Int16) : Int × ByteFile × List Int16 :=
  if fp.eof then
    (1, fp, output)
  else
    let (read, fp) := fp.fread int16 frameSize.toNat
    let readed := read.length
    let output := read ++ output.drop readed
    if readed ≤ 0 then
      let res := checkEndFile fp
      (if res = 0 then 1 else 1000 + res, fp, output)
    else if readed < frameSize.toNat then
      -- `memset` clears the rest of the array, a part of an item included.
      (0, fp, output.take readed ++ List.replicate (frameSize.toNat - readed) 0)
    else
      (0, fp, output)

/--
The loop of `run` in `vad/src/main.c`: the frames that were read and the code that ended it.
-/
def readFrames : Nat → ByteFile → List Int16 → Option (List (List Int16) × Int)
  | 0, _, _ => none
  | fuel + 1, fp, output =>
    let (res, fp, output) := readInt16Bytes int16 fp output
    if res = 0 then
      (readFrames fuel fp output).map fun (frames, last) => (output :: frames, last)
    else
      some ([], res)

end SimpleVad
