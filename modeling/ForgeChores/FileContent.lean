import ForgeChores.Base64
import ForgeChores.ForgeError
import ForgeChores.Text.Utf8

/-!
# ForgeChores.FileContent

File bodies as forges send them: text in base64, wrapped in lines as the forge likes. White space
anywhere in the encoded body does not matter; everything else has to be exactly what `encode`
writes for some text.
-/

namespace ForgeChores
namespace FileContent

def encode (content : String) : String :=
  String.ofList (Base64.encode (Text.Utf8.encode content))

/-- The encoded body without white space. -/
def compact (raw : String) : List Char := raw.toList.filter fun c => !Text.isBlank c

def decode (context raw : String) : Except ForgeError String :=
  match Base64.decode (compact raw) with
  | none =>
    .error (.provider context none "invalid base64 content: not a padded text of base64 digits")
  | some bytes =>
    match Text.Utf8.decode bytes with
    | .ok s => .ok s
    | .error fault =>
      .error (.provider context none ("file content is not UTF-8: " ++ fault.message))

end FileContent
end ForgeChores
