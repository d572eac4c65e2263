import Stencil.Group.Basic
import Stencil.Text.CaseMap
import Stencil.Text.Encode
/-! The renderer for text, which knows a few formats. -/

namespace Stencil

namespace Renderer

/-- Text in a format. An unknown format leaves it as it is. -/
def inFormat (text : String) : Option String → String
  | some "upper" => Text.upper text
  | some "lower" => Text.lower text
  | some "cap" => Text.capitalize text
  | some "xml-encode" => Text.markupEncode text
  | some "url-encode" => Text.urlEncode text
  | _ => text

/-- The renderer that applies the formats to the plain text of a scalar. -/
def formats : Renderer := fun _ text format => .ok (inFormat text format)

end Renderer

end Stencil
