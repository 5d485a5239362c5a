import CodeAtlas.Text.Lines

/-!
# Languages

The languages that source is highlighted for, and the ids by which documents and code blocks name
them.
-/

namespace CodeAtlas

inductive Language where
  | rust
  | java
  | python
  | javaScript
  | typeScript
  | tsx
  | go
  deriving DecidableEq, Repr

namespace Language

/-- The language that an id names, in whatever case. -/
def ofId? (id : String) : Option Language :=
  match String.ofList ((Text.trim id.toList).map Char.toLower) with
  | "rust" | "rs" => some .rust
  | "java" => some .java
  | "python" | "py" => some .python
  | "javascript" | "javascriptreact" | "js" | "jsx" => some .javaScript
  | "typescript" | "ts" => some .typeScript
  | "typescriptreact" | "tsx" => some .tsx
  | "go" | "golang" => some .go
  | _ => none

/-- The id that documents use for the language. -/
def id : Language → String
  | .rust => "rust"
  | .java => "java"
  | .python => "python"
  | .javaScript => "javascript"
  | .typeScript => "typescript"
  | .tsx => "typescriptreact"
  | .go => "go"

end Language

end CodeAtlas
