import DocAnnotator.Text.Word

/-! ## Module identifiers

    An identifier is a path, possibly with a query. Its suffix picks the dialect.
-/

namespace DocAnnotator

/-- The dialects a source unit can have. A container embeds a script; other names are carried
    along and have no grammar. -/
inductive Dialect where
  | javascript
  | jsx
  | typescript
  | tsx
  | vue
  | other (name : Text)
  deriving DecidableEq

namespace Dialect

/-- The name of a dialect. -/
def name : Dialect → Text
  | .javascript => "javascript".toList
  | .jsx => "jsx".toList
  | .typescript => "typescript".toList
  | .tsx => "tsx".toList
  | .vue => "vue".toList
  | .other name => name

/-- The dialect of a name. -/
def ofName (name : Text) : Dialect :=
  if name = "javascript".toList then .javascript
  else if name = "jsx".toList then .jsx
  else if name = "typescript".toList then .typescript
  else if name = "tsx".toList then .tsx
  else if name = "vue".toList then .vue
  else .other name

/-- Does the dialect have a grammar of its own? -/
def isSupported : Dialect → Bool
  | .javascript | .jsx | .typescript | .tsx => true
  | .vue | .other _ => false

end Dialect

namespace Identifier

/-- An identifier without its query. -/
def stripQuery (id : Text) : Text := id.takeWhile (· != '?')

/-- An identifier with slashes only. -/
def normalize (id : Text) : Text := Text.replaceChar '\\' '/' id

/-- The components between the slashes of a path, as they are written. -/
def rawComponents : Text → List Text
  | [] => [[]]
  | c :: s =>
    if c = '/' then [] :: rawComponents s
    else match rawComponents s with
      | [] => [[c]]
      | first :: more => (c :: first) :: more

/-- The components of a path. Empty ones and single dots say nothing and are dropped. -/
def components (path : Text) : List Text :=
  (rawComponents path).filter fun c => !c.isEmpty && c != ['.']

/-- The suffix of a file name: from its last dot on, if there is something on both sides. -/
def nameSuffix (name : Text) : Text :=
  let tail := (name.reverse.takeWhile (· != '.')).reverse
  if tail.isEmpty || name.length ≤ tail.length + 1 then [] else '.' :: tail

/-- The suffix of a path: that of its last component. -/
def suffix (path : Text) : Text := ((components path).getLast?.map nameSuffix).getD []

/-- The dialect of a suffix in small letters. -/
def suffixDialect (suffix : Text) : Dialect :=
  if [".js".toList, ".mjs".toList, ".cjs".toList].contains suffix then .javascript
  else if suffix = ".jsx".toList then .jsx
  else if [".ts".toList, ".mts".toList, ".cts".toList].contains suffix then .typescript
  else if suffix = ".tsx".toList then .tsx
  else if suffix = ".vue".toList then .vue
  else .typescript

/-- The dialect of a source unit. An unknown suffix reads as TypeScript. -/
def dialect (id : Text) : Dialect := suffixDialect (Text.lower (suffix (normalize (stripQuery id))))

end Identifier

end DocAnnotator
