-- Resources in addresses: a file becomes an address that holds its media type and its content in
-- base 64. Names of resources get a short fingerprint, so that two bundles never share one.
import ViewBinder.Path
import ViewBinder.Text.CaseMap

namespace ViewBinder.Resource

/-! ## Base 64 -/

/-- The digit for six bits. -/
def sixBits (n : Nat) : UInt8 :=
  if n < 26 then (65 + n).toUInt8
  else if n < 52 then (71 + n).toUInt8
  else if n < 62 then (n - 4).toUInt8
  else if n == 62 then '+'.toUInt8 else '/'.toUInt8

/-- Three bytes at a time as four digits; what is missing at the end is filled with equals signs. -/
def base64 : Text → Text
  | [] => []
  | [a] => [sixBits (a.toNat / 4), sixBits (a.toNat % 4 * 16), '='.toUInt8, '='.toUInt8]
  | [a, b] =>
    [sixBits (a.toNat / 4), sixBits (a.toNat % 4 * 16 + b.toNat / 16),
     sixBits (b.toNat % 16 * 4), '='.toUInt8]
  | a :: b :: c :: rest =>
    sixBits (a.toNat / 4) :: sixBits (a.toNat % 4 * 16 + b.toNat / 16) ::
      sixBits (b.toNat % 16 * 4 + c.toNat / 64) :: sixBits (c.toNat % 64) :: base64 rest

/-- The address that holds some content. -/
def dataUrl (mediaType content : Text) : Text :=
  "data:" ++ mediaType ++ ";base64," ++ base64 content

/-! ## Media types -/

/-- The media types of file extensions. -/
def mediaTypes : List (Text × Text) :=
  [(".avif", "image/avif"), (".css", "text/css; charset=utf-8"), (".gif", "image/gif"),
   (".htm", "text/html; charset=utf-8"), (".html", "text/html; charset=utf-8"),
   (".jpeg", "image/jpeg"), (".jpg", "image/jpeg"), (".js", "text/javascript; charset=utf-8"),
   (".json", "application/json"), (".mjs", "text/javascript; charset=utf-8"),
   (".pdf", "application/pdf"), (".png", "image/png"), (".svg", "image/svg+xml"),
   (".wasm", "application/wasm"), (".webp", "image/webp"), (".xml", "text/xml; charset=utf-8")]

/-- The media type of files that have no other. -/
def otherMediaType : Text := "application/octet-stream"

/-- The media type of a file by its extension, whatever the case. -/
def mediaTypeOf (path : Text) : Text :=
  (mediaTypes.lookup (Text.toLower (Path.extension path))).getD otherMediaType

/-! ## Fingerprints -/

/-- The 32 bit hash of a text: each byte is mixed in and the sum multiplied by a prime. -/
def hash32 (t : Text) : UInt32 :=
  t.foldl (fun h b => (h ^^^ b.toUInt32) * 16777619) 2166136261

/-- A digit in base 36. -/
def digit36 (n : Nat) : UInt8 := if n < 10 then (48 + n).toUInt8 else (55 + n).toUInt8

/-- A number of at most `size` digits in base 36. -/
def base36 : Nat → Nat → Text
  | 0, _ => []
  | size + 1, n => if n < 36 then [digit36 n] else base36 size (n / 36) ++ [digit36 (n % 36)]

/-- A short name for a text, the same for the same text. -/
def fingerprint (t : Text) : Text := "G" ++ base36 7 (hash32 t).toNat

end ViewBinder.Resource
