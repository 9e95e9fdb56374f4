import Mathlib.Data.List.Basic

/-!
This module contains `vad/src/file_cut.c`: it cuts a PCM stream into files along the activity of its
frames.
-/

structure PcmFile where
  samples : List UInt16
  pos : Nat := 0
  deriving Repr, DecidableEq

/--
How many items `fread` delivers of those it could deliver, whether `fopen` succeeds, and how many
items `fwrite` writes of those it is given.
-/
structure FileOps where
  fread : Nat → Nat
  fopen : Bool
  fwrite : Nat → Nat

def FileOps.succeeding : FileOps where
  fread n := n
  fopen := true
  fwrite n := n

structure OutFile where
  name : List Char
  samples : List UInt16
  deriving Repr, DecidableEq

structure CutInfo where
  isPerviousActive : Int := 0
  isContainActive : Int := 0
  previousAlongFrames : Int := 0
  fp : PcmFile
  currentFrame : Int := 0
  cutBeginFrame : Int := 0
  resultFilename : List Char := []
  outputFileDir : List Char := []
  outputFilenamePrefix : List Char := []
  lastCutBeginFrame : Int := 0
  deriving Repr, DecidableEq

/--
The state with the files that were opened and the numbers of frames that `cut_write_file` was called with.
-/
structure Cutter where
  info : CutInfo
  files : List OutFile := []
  asked : List Int := []
  deriving Repr, DecidableEq

def multi : Int := 1

def frameSize : Int := 16 * multi * 10

def calTimeByFrame (frame : Int) : Int :=
  multi * 10 * frame

def calFrameByTime (time : Int) : Int :=
  time / (multi * 10)

def fileCutSilenceAfterActiveMs : Int := 250

def fileCutSilenceBeforeActiveMs : Int := 300

def fileCutMinMs : Int := 5 * 1000

def fileCutMaxMs : Int := 10 * 1000

def PcmFile.fread (ops : FileOps) (fp : PcmFile) (n : Nat) : List UInt16 × PcmFile :=
  let available := fp.samples.drop fp.pos
  let readed := min (ops.fread (min n available.length)) (min n available.length)
  (available.take readed, { fp with pos := fp.pos + readed })

def snprintf (size : Nat) (text : List Char) : List Char :=
  text.take (size - 1)

namespace CutInfo

def resultFilenameSize : Nat := 200

def filename (cut : CutInfo) (lastFrame : Int) : List Char :=
  -- "%s/%s_%ld-%ld_%s.pcm"
  cut.outputFileDir ++ ['/'] ++ cut.outputFilenamePrefix ++ ['_']
    ++ (toString (calTimeByFrame cut.cutBeginFrame)).toList ++ ['-']
    ++ (toString (calTimeByFrame lastFrame - 1)).toList ++ ['_']
    ++ [if cut.isContainActive ≠ 0 then 'A' else 'I'] ++ ".pcm".toList

end CutInfo

namespace Cutter

/--
`cut_info_create` and the two fields that its caller fills in.
-/
def cutInfoCreate (samples : List UInt16) (dir filenamePrefix : List Char) : Cutter where
  info := { fp := { samples }, outputFileDir := dir, outputFilenamePrefix := filenamePrefix }

def cutWriteFile (ops : FileOps) (c : Cutter) (frames : Int) : Int × Cutter :=
  let c := { c with asked := c.asked ++ [frames] }
  let size := frames * frameSize
  let (buffer, fp) := c.info.fp.fread ops size.toNat
  let c := { c with info := { c.info with fp := fp } }
  let readed := buffer.length
  if readed > 0 then
    if !ops.fopen then
      (3, c)
    else
      let written := min (ops.fwrite readed) readed
      let c := { c with files := c.files ++ [⟨c.info.resultFilename, buffer.take written⟩] }
      if written ≠ readed then
        (2, c)
      else
        (0, c)
  else
    (1, c)

def cutFrame (ops : FileOps) (c : Cutter) (lastFrame force : Int) : Int × Cutter :=
  let frames := lastFrame - c.info.cutBeginFrame
  if force ≠ 0 ∨ frames ≥ calFrameByTime fileCutMinMs then
    let name := snprintf CutInfo.resultFilenameSize (c.info.filename lastFrame)
    let c := { c with info := { c.info with resultFilename := name } }
    -- The result of the write is not looked at.
    let (_, c) := c.cutWriteFile ops frames
    (0, { c with
      info := { c.info with
        isPerviousActive := 0
        isContainActive := 0
        lastCutBeginFrame := c.info.cutBeginFrame
        cutBeginFrame := lastFrame } })
  else
    (1, c)

def addContinued (ops : FileOps) (c : Cutter) (isActive : Int) : Int × Cutter :=
  let (res, c) :=
    if isActive = 0 ∧ c.info.isContainActive ≠ 0 then
      let diff := c.info.previousAlongFrames - calFrameByTime fileCutSilenceAfterActiveMs
      if diff ≥ 0 then
        c.cutFrame ops c.info.currentFrame 0
      else
        (1, c)
    else
      (1, c)
  if res = 0 then
    let frame := -1 * c.info.currentFrame
    (frame, { c with info := { c.info with previousAlongFrames := 1 } })
  else
    (0, { c with
      info := { c.info with previousAlongFrames := c.info.previousAlongFrames + 1 } })

def addChanged (ops : FileOps) (c : Cutter) (isActive : Int) : Int × Cutter :=
  let (frame, c) :=
    if isActive ≠ 0
        ∧ c.info.previousAlongFrames > calFrameByTime fileCutSilenceBeforeActiveMs then
      let cFrames := c.info.currentFrame - calFrameByTime fileCutSilenceBeforeActiveMs
      let (res, c) := c.cutFrame ops cFrames 0
      if res = 0 then
        (-1 * cFrames, c)
      else
        (0, c)
    else
      (0, c)
  (frame, { c with info := { c.info with previousAlongFrames := 1 } })

def cutAddVadActivity (ops : FileOps) (c : Cutter) (isActive isLast : Int) : Int × Cutter :=
  let (res, c) :=
    if isLast ≠ 0
        ∨ c.info.currentFrame - c.info.cutBeginFrame = calFrameByTime fileCutMaxMs then
      let (_, c) := c.cutFrame ops c.info.currentFrame isLast
      (-1 * c.info.currentFrame, c)
    else if c.info.isPerviousActive = isActive then
      c.addContinued ops isActive
    else
      let (res, c) := c.addChanged ops isActive
      if isActive ≠ 0 then
        (res, { c with info := { c.info with isContainActive := 1 } })
      else
        (res, c)
  (res, { c with
    info := { c.info with
      isPerviousActive := isActive
      currentFrame := c.info.currentFrame + 1 } })

end Cutter
