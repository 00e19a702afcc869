import PageScript.Digest
import PageScript.Text.Utf8

/-!
# Names derived from paths

The class that a page compiles to, the module that holds it and the file of its generated script.
The class name keeps what can be kept of the path and ends in part of the path's digest, so that
paths which differ only in other characters get different names.
-/

namespace PageScript.Naming

/-- The path without its leading slashes, with an underscore for everything but ASCII letters and
digits. -/
def sanitize (path : List Char) : List Char :=
  (path.dropWhile (· = '/')).map fun c ↦ if c.isAlphanum then c else '_'

/-- Eight hexadecimal digits: the first four bytes of the digest. -/
def mark (path : String) : List Char :=
  ((Digest.sha256 (Text.Utf8.encode path)).take 4).flatMap Bytes.hexOfByte

def className (path : String) : String :=
  String.ofList ("Page_".toList ++ sanitize path.toList ++ '_' :: mark path)

def moduleName (className : String) : String := "Compiled." ++ className

def generatedPath (path : String) : String := path ++ ".g.kps"

end PageScript.Naming
