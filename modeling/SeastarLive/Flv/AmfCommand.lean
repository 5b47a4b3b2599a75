/-
SeastarLive.Flv.AmfCommand — the command name at the front of a script packet.

`parse_command_name`, `command_from_name`, `parse_amf_command`,
`rtmp_sample_access_t::decode` and the constructor of `script_t`, all of
`src/flv/metadata.cc`, with `AMFReadString` and `AMFReadBoolean` of
`3rd/libflv/source/amf0.c`. A buffer is a list of bytes; a byte of a name is
the character with its code.
-/
import SeastarLive.Flv.Frame

namespace SeastarLive.Flv

/-- `AMF_STRING`. -/
def amfString : UInt8 := 2

/-- The size of the buffer `parse_amf_command` reads a name into. -/
def commandNameBuffer : Nat := 64

/-- `amf_command`. -/
inductive AmfCommand
  | unknown
  | metaData
  | textData
  | caption
  | captionInfo
  | cuePoint
  | rtmpSampleAccess
deriving DecidableEq

/-- `AMFReadString` of a short string: the string in the buffer of `size` zero bytes it is
    read into, and what is left. A string that does not fit is not copied. -/
def amfReadString (size : Nat) : List UInt8 → Option (List Char × List UInt8)
  | b₀ :: b₁ :: rest =>
      let len := b₀.toNat * 256 + b₁.toNat
      if rest.length < len then none
      else
        let name :=
          if len < size then (rest.take len).map fun b => Char.ofNat b.toNat
          else List.replicate len (Char.ofNat 0)
        some (name, rest.drop len)
  | _ => none

/-- `parse_command_name`: the name, and what is left behind it. -/
def parseCommandName : List UInt8 → Option (List Char × List UInt8)
  | [] => none
  | b :: rest => if b = amfString then amfReadString commandNameBuffer rest else none

/-- `command_from_name`. -/
def commandFromName (name : List Char) : AmfCommand :=
  if name = "onMetaData".toList then .metaData
  else if name = "onTextData".toList then .textData
  else if name = "onCaption".toList then .caption
  else if name = "onCaptionInfo".toList then .captionInfo
  else if name = "|RtmpSampleAccess".toList then .rtmpSampleAccess
  else .unknown

/-- `parse_amf_command`: the command, and what is left behind its name. -/
def parseAmfCommand (data : List UInt8) : Option (AmfCommand × List UInt8) := do
  let (name, rest) ← parseCommandName data
  return (commandFromName name, rest)

/-- `rtmp_sample_access_t::decode`: whether both arguments are there. -/
def sampleAccessDecode : List UInt8 → Option (UInt8 × UInt8)
  | b₀ :: b₁ :: _ => some (b₀, b₁)
  | _ => none

/-- The constructor of `script_t`; it reads a second name from the data it is given. -/
def Script.ofData (data : List UInt8) : Script where
  cmdName := match parseCommandName data with
    | some (name, _) => name
    | none => []
  data := data

end SeastarLive.Flv
