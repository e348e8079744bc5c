/-! # Checksums

CRC-32 with the reflected polynomial `0xEDB88320`, over the UTF-8 bytes of a text. -/

namespace ProcedureBridge.Text

def polynomial : UInt32 := 0xEDB88320

/-- Divides one bit out. -/
def crcBit (r : UInt32) : UInt32 := if r &&& 1 = 1 then (r >>> 1) ^^^ polynomial else r >>> 1

def crcByte (r : UInt32) (b : UInt8) : UInt32 :=
  (List.range 8).foldl (fun r _ => crcBit r) (r ^^^ b.toUInt32)

def checksum (text : String) : UInt32 :=
  (text.toUTF8.foldl crcByte 0xFFFFFFFF) ^^^ 0xFFFFFFFF

end ProcedureBridge.Text
