import CodeAtlas.Path
import CodeAtlas.Text.Case

/-!
# Source languages

The extension of a file decides the language it is read in.
-/

namespace CodeAtlas

/-- A language that has a grammar. -/
inductive Language where
  | typescript
  | tsx
  | javascript
  deriving DecidableEq

namespace Language

/-- The name of a language. -/
def label : Language → String
  | .typescript => "typescript"
  | .tsx => "tsx"
  | .javascript => "javascript"

/-- The package that holds the grammar of a language. -/
def grammarPackage : Language → String
  | .typescript | .tsx => "tree_sitter_typescript"
  | .javascript => "tree_sitter_javascript"

/-- The name of the grammar of a language in its package. -/
def grammarName : Language → String
  | .typescript => "language_typescript"
  | .tsx => "language_tsx"
  | .javascript => "language"

/-- Every language. -/
def all : List Language := [.typescript, .tsx, .javascript]

/-- The extensions of source files, with their languages. -/
def extensions : List (String × Language) :=
  [(".ts", .typescript), (".mts", .typescript), (".cts", .typescript), (".tsx", .tsx),
    (".js", .javascript), (".jsx", .javascript), (".mjs", .javascript), (".cjs", .javascript)]

/-- The language of a file, by its extension in lower case.  Files with an unknown extension are
read as TypeScript. -/
def ofPath (path : String) : Language :=
  let extension := Text.lower (String.ofList (Path.extension path.toList))
  (extensions.lookup extension).getD .typescript

end Language
end CodeAtlas
