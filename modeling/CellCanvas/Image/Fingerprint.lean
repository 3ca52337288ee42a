/-!
# Fingerprints

The 64-bit FNV-1a hash of bytes. It tells images apart in the image cache and is the same on every
run.
-/

namespace CellCanvas

/-- The hash of bytes: each is mixed into the low byte, then the state is multiplied. -/
def fingerprint (bytes : ByteArray) : UInt64 :=
  bytes.foldl (fun h b => (h ^^^ b.toUInt64) * 0x100000001b3) 0xcbf29ce484222325

end CellCanvas
