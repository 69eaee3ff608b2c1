import ReleaseUpgrade.Object.Metadata

/-!
# Volumes

The shapes of the volumes that a pod can use.  None of their members matters here; all pass through.
-/

namespace ReleaseUpgrade.Shape

/-- flags that are left out when they are missing -/
def flags (names : List String) : List (String × Bool × Shape) := names.map fun n => opt n .bool

/-- numbers of 32 bits that are left out when they are missing -/
def numbers (names : List String) : List (String × Bool × Shape) := names.map fun n => opt n .int32

/-- texts that are always written -/
def names (names : List String) : List (String × Bool × Shape) := names.map fun n => req n .text

/-- metadata inside another object -/
def metadata : Shape :=
  .object (texts ["name", "generateName", "namespace", "resourceVersion", "uid"] ++
    [opt "generation" .int64, opt "labels" (.dict .text), opt "annotations" (.dict .text),
     opt "finalizers" (.list .text), opt "deletionTimestamp" .time] ++ Metadata.passed)

/-- a label selector -/
def selector : Shape :=
  .object [opt "matchExpressions" (.list (.object
    [req "key" .text, req "operator" .text, opt "values" (.list .text)])),
    opt "matchLabels" (.dict .text)]

/-- a reference to an object of the same namespace -/
def localRef : Shape := .object (names ["name"])

/-- a field of the pod -/
def fieldRef : Shape := .object [opt "apiVersion" .text, req "fieldPath" .text]

/-- a resource of a container -/
def resourceFieldRef : Shape :=
  .object [opt "containerName" .text, opt "divisor" .text, req "resource" .text]

/-- keys and the paths they are written to -/
def keyPaths : Shape := .list (.object [req "key" .text, opt "mode" .int32, req "path" .text])

/-- fields of the pod and the paths they are written to -/
def downwardItems : Shape :=
  .list (.object [opt "fieldRef" fieldRef, opt "mode" .int32, req "path" .text,
    opt "resourceFieldRef" resourceFieldRef])

/-- amounts of resources -/
def amounts : List (String × Bool × Shape) :=
  [opt "limits" (.dict .text), opt "requests" (.dict .text)]

/-- a claim for a volume that is made with the pod -/
def claimTemplate : Shape :=
  .object [opt "metadata" metadata, req "spec" (.object
    (texts ["storageClassName", "volumeAttributesClassName", "volumeMode", "volumeName"] ++
      [opt "accessModes" (.list .text),
       opt "dataSource" (.object (texts ["apiGroup"] ++ names ["kind", "name"])),
       opt "dataSourceRef" (.object (texts ["apiGroup", "namespace"] ++ names ["kind", "name"])),
       opt "resources" (.object amounts),
       opt "selector" selector]))]

/-- one source of a projected volume -/
def projection : Shape :=
  .object [
    opt "clusterTrustBundle" (.object
      [opt "labelSelector" selector, opt "name" .text, opt "optional" .bool, req "path" .text,
       opt "signerName" .text]),
    opt "configMap" (.object [opt "items" keyPaths, req "name" .text, opt "optional" .bool]),
    opt "downwardAPI" (.object [opt "items" downwardItems]),
    opt "secret" (.object [opt "items" keyPaths, req "name" .text, opt "optional" .bool]),
    opt "serviceAccountToken" (.object
      [opt "audience" .text, opt "expirationSeconds" .int64, req "path" .text])]

/-- a volume with its source -/
def volume : Shape :=
  .object [
    req "name" .text,
    opt "awsElasticBlockStore" (.object
      [opt "fsType" .text, opt "partition" .int32, opt "readOnly" .bool, req "volumeID" .text]),
    opt "azureDisk" (.object (texts ["cachingMode", "fsType", "kind"] ++ flags ["readOnly"] ++
      names ["diskName", "diskURI"])),
    opt "azureFile" (.object (flags ["readOnly"] ++ names ["secretName", "shareName"])),
    opt "cephfs" (.object (texts ["path", "secretFile", "user"] ++ flags ["readOnly"] ++
      [req "monitors" (.list .text), opt "secretRef" localRef])),
    opt "cinder" (.object (texts ["fsType"] ++ flags ["readOnly"] ++
      [opt "secretRef" localRef, req "volumeID" .text])),
    opt "configMap" (.object [opt "defaultMode" .int32, opt "items" keyPaths, req "name" .text,
      opt "optional" .bool]),
    opt "csi" (.object [req "driver" .text, opt "fsType" .text,
      opt "nodePublishSecretRef" localRef, opt "readOnly" .bool,
      opt "volumeAttributes" (.dict .text)]),
    opt "downwardAPI" (.object [opt "defaultMode" .int32, opt "items" downwardItems]),
    opt "emptyDir" (.object (texts ["medium", "sizeLimit"])),
    opt "ephemeral" (.object [opt "volumeClaimTemplate" claimTemplate]),
    opt "fc" (.object [opt "fsType" .text, opt "lun" .int32, opt "readOnly" .bool,
      opt "targetWWNs" (.list .text), opt "wwids" (.list .text)]),
    opt "flexVolume" (.object [req "driver" .text, opt "fsType" .text, opt "options" (.dict .text),
      opt "readOnly" .bool, opt "secretRef" localRef]),
    opt "flocker" (.object (texts ["datasetName", "datasetUUID"])),
    opt "gcePersistentDisk" (.object
      [opt "fsType" .text, opt "partition" .int32, req "pdName" .text, opt "readOnly" .bool]),
    opt "gitRepo" (.object (texts ["directory", "revision"] ++ names ["repository"])),
    opt "glusterfs" (.object (flags ["readOnly"] ++ names ["endpoints", "path"])),
    opt "hostPath" (.object (texts ["type"] ++ names ["path"])),
    opt "image" (.object (texts ["pullPolicy", "reference"])),
    opt "iscsi" (.object (flags ["chapAuthDiscovery", "chapAuthSession", "readOnly"] ++
      texts ["fsType", "initiatorName", "iscsiInterface"] ++ names ["iqn", "targetPortal"] ++
      [req "lun" .int32, opt "portals" (.list .text), opt "secretRef" localRef])),
    opt "nfs" (.object (flags ["readOnly"] ++ names ["path", "server"])),
    opt "persistentVolumeClaim" (.object (flags ["readOnly"] ++ names ["claimName"])),
    opt "photonPersistentDisk" (.object (texts ["fsType"] ++ names ["pdID"])),
    opt "portworxVolume" (.object (texts ["fsType"] ++ flags ["readOnly"] ++ names ["volumeID"])),
    opt "projected" (.object [opt "defaultMode" .int32, opt "sources" (.list projection)]),
    opt "quobyte" (.object (texts ["group", "tenant", "user"] ++ flags ["readOnly"] ++
      names ["registry", "volume"])),
    opt "rbd" (.object (texts ["fsType", "keyring", "pool", "user"] ++ flags ["readOnly"] ++
      names ["image"] ++ [req "monitors" (.list .text), opt "secretRef" localRef])),
    opt "scaleIO" (.object (texts ["fsType", "protectionDomain", "storageMode", "storagePool",
      "volumeName"] ++ flags ["readOnly", "sslEnabled"] ++ names ["gateway", "system"] ++
      [req "secretRef" localRef])),
    opt "secret" (.object [opt "defaultMode" .int32, opt "items" keyPaths, opt "optional" .bool,
      opt "secretName" .text]),
    opt "storageos" (.object (texts ["fsType", "volumeName", "volumeNamespace"] ++
      flags ["readOnly"] ++ [opt "secretRef" localRef])),
    opt "vsphereVolume" (.object (texts ["fsType", "storagePolicyID", "storagePolicyName"] ++
      names ["volumePath"]))]

end ReleaseUpgrade.Shape
