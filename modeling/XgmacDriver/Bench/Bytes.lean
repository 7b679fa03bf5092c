import XgmacDriver.Memory.Basic

/-! # Bytes on the bench

How runs of bytes are shown and how test frames are made. A short run is shown whole in hexadecimal,
a long one by its length and its hash.
-/

namespace XgmacDriver.Bench

def hexByte (b : UInt8) : String :=
  String.ofList [Nat.digitChar (b.toNat / 16), Nat.digitChar (b.toNat % 16)]

def hex (bytes : List UInt8) : String := String.join (bytes.map hexByte)

/-- The 64-bit FNV-1a hash. -/
def fnv1a (bytes : List UInt8) : UInt64 :=
  bytes.foldl (fun h b => (h ^^^ b.toUInt64) * 0x100000001b3) 0xcbf29ce484222325

def wordBytes (w : UInt64) : List UInt8 :=
  ([56, 48, 40, 32, 24, 16, 8, 0] : List UInt64).map fun shift => (w >>> shift).toUInt8

/-- Runs longer than this are shown by length and hash. -/
def shownWhole : Nat := 64

def showBytes (bytes : List UInt8) : String :=
  if bytes.length ≤ shownWhole then hex bytes
  else toString bytes.length ++ ":" ++ hex (wordBytes (fnv1a bytes))

inductive FrameSpec
  | literal (bytes : List UInt8)
  | pattern (length : Nat) (destination : List UInt8) (etherType : UInt16) (seed : UInt8)

def patternSource : List UInt8 := [0x02, 0x00, 0x00, 0x00, 0x00, 0x99]

namespace FrameSpec

def header (destination : List UInt8) (etherType : UInt16) : List UInt8 :=
  destination ++ patternSource ++ [(etherType >>> 8).toUInt8, etherType.toUInt8]

/-- The bytes of the frame, a header that does not fit being cut. -/
def toBytes : FrameSpec → List UInt8
  | literal bytes => bytes
  | pattern length destination etherType seed =>
      let header := header destination etherType
      let body := (List.range length).map fun i => UInt8.ofNat i + seed
      (header ++ body.drop header.length).take length

end FrameSpec

end XgmacDriver.Bench
