/-!
# The tokens of YAML text

`Token` is a mark or a word of YAML.  Indentation and keys have become tokens too: a block
collection has a token where it starts and one where it ends, and every key has one before it.
-/

namespace ReleaseUpgrade.Yaml

/-- a mark or a word of YAML -/
inductive Token where
  /-- the directive that states the version of YAML -/
  | version (major minor : Nat)
  /-- the directive that declares what a handle of tags stands for -/
  | tagHandle (handle front : String)
  | documentStart
  | documentEnd
  | blockSequenceStart
  | blockMappingStart
  | blockEnd
  | flowSequenceStart
  | flowSequenceEnd
  | flowMappingStart
  | flowMappingEnd
  | blockEntry
  | flowEntry
  | key
  | value
  | alias (name : String)
  | anchor (name : String)
  | tag (handle rest : String)
  /-- a text; `plain` if nothing sets it off -/
  | scalar (text : String) (plain : Bool)
  deriving DecidableEq, Repr

end ReleaseUpgrade.Yaml
