import VivimOmega.Library.Json.Canonical
import VivimOmega.Library.Sha256

/-! Canonical JSON and content hashing of the host. -/

namespace VivimOmega.Host

open Library.Json

def canonicalJson (value : Value) : Except String String :=
  (canonicalText (fun v => "canonicalJson: unsupported value " ++ v.shown) value).map String.ofList

end VivimOmega.Host
