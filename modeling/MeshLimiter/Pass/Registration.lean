import MeshLimiter.Pass.Settings
import MeshLimiter.Program.Basic
import MeshLimiter.Registry.Yaml
import MeshLimiter.Text.Blank
/-!
# Registering shared limits

The registry is kept as a text among the named texts of the cluster. A merge reads it, replaces the
entries of one service, and writes it only if that changed it. The version that was read goes with
the write, so that a change in between is found out.

The named texts are the `data` of an object of the kind `ConfigMap`, and the registry is its text
`config.yaml`.
-/

namespace MeshLimiter

namespace Registry

/-- The name of the text that holds the registry. -/
def textName : String := "config.yaml"

/-- The labels of a registry that is created. -/
def labels : Labels := (∅ : Labels).insert "app" "rate-limit"

/-- A new registry with entries. -/
def firstOf (s : Settings) (descriptors : List GlobalDescriptor) : ConfigMap :=
  { metadata := { ns := some s.registry.ns, name := some s.registry.name, labels := some labels }
    data := some ((∅ : Std.ExtTreeMap String String).insert textName
      { domain := s.registryDomain, descriptors : Registry }.toYaml) }

/-- The registry among named texts; an empty one if there is no text or a blank one. None if it
cannot be read. -/
def ofConfigMap? (s : Settings) (c : ConfigMap) : Option Registry :=
  match c.data.bind fun d => d[textName]? with
  | none => some { domain := s.registryDomain }
  | some text => if Text.isAllBlank text then some { domain := s.registryDomain } else ofYaml? text

/-- Named texts with the registry written among them. -/
def writtenInto (r : Registry) (c : ConfigMap) : ConfigMap :=
  { c with data := some ((c.data.getD ∅).insert textName r.toYaml) }

/-- Replaces the entries of a service; whether that wrote the registry. A registry is created only
if there is an entry for it. -/
def merge (s : Settings) (service : ResourceId) (descriptors : List GlobalDescriptor) :
    Attempt PassError Bool :=
  Attempt.holding .registry do
    let found : Option ConfigMap ← Attempt.call .cluster (.configMap s.registry)
    match found with
    | none =>
      if descriptors.isEmpty then return false
      else
        let _ : Unit ← Attempt.call .cluster (.createConfigMap (firstOf s descriptors))
        Program.count (.registryWrite .create)
        return true
    | some c =>
      match ofConfigMap? s c with
      | none => throw .registryUnreadable
      | some current =>
        let new := current.merged s.registryDomain service descriptors
        if new = current then return false
        else
          let _ : Unit ← Attempt.call .cluster (.replaceConfigMap (new.writtenInto c))
          Program.count (.registryWrite .update)
          return true

end Registry

end MeshLimiter
