import MeshLimiter.Cluster.Error
import MeshLimiter.Resource.Basic
/-!
# Calls to the cluster

What the controller may ask of the cluster, and the type of each answer. Objects are read, created,
replaced and deleted one by one; only pods are listed.

The objects are services and pods, which are only read, proxy filters and the registry, which are
also written, and limiters, of which only the status is written.
-/

namespace MeshLimiter

/-- A call to the cluster. -/
inductive ClusterCall where
  | service (id : ResourceId)
  | pods (ns : String) (selector : Labels)
  | filter (id : ResourceId)
  | createFilter (f : ProxyFilter)
  | replaceFilter (f : ProxyFilter)
  | deleteFilter (id : ResourceId)
  | configMap (id : ResourceId)
  | createConfigMap (c : ConfigMap)
  | replaceConfigMap (c : ConfigMap)
  | patchStatus (id : ResourceId) (status : LimiterStatus)
deriving DecidableEq

namespace ClusterCall

def Answer : ClusterCall → Type
  | service _ => Option Service
  | pods _ _ => List Pod
  | filter _ => Option ProxyFilter
  | configMap _ => Option ConfigMap
  | _ => Unit

abbrev Reply (c : ClusterCall) : Type := Except ClusterError c.Answer

def kind : ClusterCall → String
  | service _ => "service"
  | pods _ _ => "pods"
  | filter _ => "get_filter"
  | createFilter _ => "create_filter"
  | replaceFilter _ => "replace_filter"
  | deleteFilter _ => "delete_filter"
  | configMap _ => "get_config_map"
  | createConfigMap _ => "create_config_map"
  | replaceConfigMap _ => "replace_config_map"
  | patchStatus _ _ => "patch_status"

/-- The text of a selector: its pairs by name. -/
def selectorText (selector : Labels) : String :=
  ",".intercalate (selector.toList.map fun (k, v) => k ++ "=" ++ v)

/-- What a call is about. Pods go by the selector that picks them. -/
def subject : ClusterCall → ResourceId
  | service id => id
  | pods ns selector => { ns, name := selectorText selector }
  | filter id => id
  | createFilter f => f.metadata.id
  | replaceFilter f => f.metadata.id
  | deleteFilter id => id
  | configMap id => id
  | createConfigMap c => c.metadata.id
  | replaceConfigMap c => c.metadata.id
  | patchStatus id _ => id

def isWrite : ClusterCall → Bool
  | service _ => false
  | pods _ _ => false
  | filter _ => false
  | configMap _ => false
  | _ => true

def text (c : ClusterCall) : String :=
  c.kind ++ " " ++ c.subject.path

end ClusterCall

end MeshLimiter
