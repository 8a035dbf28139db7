import RecordGate.Crypto.Sha256

/-!
# Authentication codes

The code of a message under a key: two digests, one inside the other, over the key and the message.
-/

namespace RecordGate.Hmac

/-- A key of one block; a longer key is replaced by its digest. -/
def blockKey (key : List UInt8) : List UInt8 :=
  let short := if 64 < key.length then Sha256.digest key else key
  short ++ List.replicate (64 - short.length) 0

def code (key message : List UInt8) : List UInt8 :=
  let block := blockKey key
  let inner := Sha256.digest (block.map (· ^^^ 0x36) ++ message)
  Sha256.digest (block.map (· ^^^ 0x5c) ++ inner)

end RecordGate.Hmac
