import CoreBridge.Config.Basic
import CoreBridge.Yaml.Writer

/-!
# Writing configurations

A configuration is written as a YAML mapping with every field, in order. The
items of a list are not indented, and a list or mapping without any is written
in brackets on the line of its key.
-/
namespace CoreBridge.Config

/-- A field whose value is text. -/
def textField (name value : String) : String :=
  Yaml.entryText 0 name (Yaml.scalarText 2 false value)

/-- A field whose value stands on the lines behind it, or `none` if there are no such lines. -/
def blockField (name none : String) (lines : List String) : String :=
  if lines.isEmpty then Yaml.entryText 0 name none
  else name ++ ":\n" ++ String.join lines

/-- The text of a configuration. -/
def render (c : Config) : String :=
  textField "library_path" c.libraryPath ++
    textField "symbol_prefix" c.symbolPrefix ++
    Yaml.entryText 0 "contract_version" (toString c.contractVersion) ++
    blockField "checksums" "\x7b\x7d"
      (c.checksums.map fun (symbol, checksum) => Yaml.entryText 2 symbol (toString checksum)) ++
    blockField "callback_contracts" "[]"
      (c.callbackContracts.map fun name => Yaml.endLine ("- " ++ Yaml.scalarText 2 false name))

end CoreBridge.Config
