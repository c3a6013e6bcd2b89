import Worksite.Base64

/-!
What a file holds, as it is shown: text if its bytes are UTF-8, otherwise base 64.
-/
namespace Worksite

inductive FileContent where
  | text (content : String)
  | binary (base64 : String)
  deriving DecidableEq, Repr

namespace FileContent

def ofBinary (bytes : ByteArray) : FileContent := binary (Base64.encodeText bytes.toList)

def ofBytes (bytes : ByteArray) (asBinary : Bool) : FileContent :=
  if asBinary then ofBinary bytes
  else
    match String.fromUTF8? bytes with
    | some s => text s
    | none => ofBinary bytes

def text? : FileContent → Option String
  | text s => some s
  | binary _ => none

end FileContent

end Worksite
