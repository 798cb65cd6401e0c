import ModelSql.Schema.FullText
import ModelSql.Json.Shape
/-!
# Full-text modes in JSON
-/

namespace ModelSql.FullTextMode

def formName : FullTextMode → String
  | content => "content"
  | contentLess => "content_less"
  | externalContent => "external_content"

def toJson (m : FullTextMode) : Json := .ofText m.formName

def ofJson? (value : Json) : Option FullTextMode :=
  value.choice? [("content", content), ("content_less", contentLess),
    ("external_content", externalContent)]

end ModelSql.FullTextMode
