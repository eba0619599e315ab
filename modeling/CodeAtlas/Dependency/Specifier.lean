import CodeAtlas.Path
import CodeAtlas.Reference

/-!
# Resolving specifiers

A reference names a module by a specifier.  A relative specifier starts from the directory of the
importing file, a rooted one from the top of the codebase, and any other goes through the aliases,
the longest of which wins.  What no analysed file answers to is an external module.
-/

namespace CodeAtlas
namespace Dependency

/-- The extensions that a specifier may leave out, in the order they are tried. -/
def impliedExtensions : List String :=
  [".ts", ".tsx", ".d.ts", ".js", ".jsx", ".mjs", ".cjs", ".mts", ".cts"]

/-- What an extension of a built file may stand for among the sources. -/
def sourceExtensions : List (String × List String) :=
  [(".js", [".ts", ".tsx"]), (".jsx", [".tsx"]), (".mjs", [".mts"]), (".cjs", [".cts"])]

/-- The paths that a base path may mean, in the order they are tried: itself, with an implied
extension, with the extension of its source, and as a directory with an index file. -/
def candidates (base : String) : List String :=
  let cs := base.toList
  let substitutes :=
    (sourceExtensions.lookup (String.ofList (Path.extension cs))).getD []
  base :: impliedExtensions.map (base ++ ·)
    ++ substitutes.map (String.ofList (Path.stem cs) ++ ·)
    ++ impliedExtensions.map fun extension =>
      String.ofList (Path.join cs ("index" ++ extension).toList)

/-- Orders aliases by the length of what they stand for, longest first. -/
def longerFirst (a b : String × String) : Bool := b.1.length ≤ a.1.length

/-- What specifiers are resolved against. -/
structure Specifiers where
  /-- The files, each under its normal form. -/
  files : List (String × String)
  /-- The aliases and their targets, longest first. -/
  aliases : List (String × String)

namespace Specifiers

/-- Specifiers over files and aliases. -/
def ofFiles (paths : List String) (aliases : List (String × String)) : Specifiers :=
  { files := paths.map fun path => (Path.normalize path, path)
    aliases := aliases.mergeSort longerFirst }

/-- The file with a normal form.  Of several spellings the last counts. -/
def file? (specifiers : Specifiers) (normal : String) : Option String :=
  specifiers.files.reverse.lookup normal

/-- The file that a base path means. -/
def lookup? (specifiers : Specifiers) (base : String) : Option String :=
  (candidates base).findSome? specifiers.file?

/-- What follows a given start of a text. -/
def dropStart? (start text : String) : Option (List Char) :=
  if start.toList.isPrefixOf text.toList then some (text.toList.drop start.length) else none

/-- The base path that an alias gives a specifier. -/
def aliased? (specifier : String) (entry : String × String) : Option String :=
  (dropStart? entry.1 specifier).map fun rest => entry.2 ++ String.ofList rest

/-- The base path of a specifier in a file, if it has one. -/
def base? (specifiers : Specifiers) (importer specifier : String) : Option String :=
  match specifier.toList with
  | '/' :: rest => some (String.ofList (rest.dropWhile (· == '/')))
  | '.' :: rest =>
    some (String.ofList
      (Path.join (Path.directory (Path.normalize importer).toList) ('.' :: rest)))
  | _ => specifiers.aliases.findSome? (aliased? specifier)

/-- The file that a specifier in a file means. -/
def resolve? (specifiers : Specifiers) (importer specifier : String) : Option String :=
  (specifiers.base? importer specifier).bind fun base => specifiers.lookup? (Path.normalize base)

end Specifiers
end Dependency
end CodeAtlas
