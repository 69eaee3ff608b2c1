import ReleaseUpgrade.Object.Volume

/-!
# Pods

`PodTemplate` is what pods are made from.  Of a container the name and the image matter here; the
other members of containers and pods pass through in their usual form.
-/

namespace ReleaseUpgrade

namespace Shape

/-- what a container can be asked, and how -/
def probeActions : List (String × Bool × Shape) :=
  [opt "exec" (.object [opt "command" (.list .text)]),
   opt "httpGet" (.object [opt "host" .text,
     opt "httpHeaders" (.list (.object (names ["name", "value"]))), opt "path" .text,
     req "port" .intOrText, opt "scheme" .text]),
   opt "tcpSocket" (.object [opt "host" .text, req "port" .intOrText])]

/-- a check of a container -/
def probe : Shape :=
  .object (probeActions ++ numbers ["failureThreshold", "initialDelaySeconds", "periodSeconds",
    "successThreshold", "timeoutSeconds"] ++
    [opt "grpc" (.object [req "port" .int32, opt "service" .text]),
     opt "terminationGracePeriodSeconds" .int64])

/-- what is done when a container starts or stops -/
def lifecycleHandler : Shape :=
  .object (probeActions ++ [opt "sleep" (.object [req "seconds" .int64])])

/-- a profile that limits what a process may do -/
def profile : Shape := .object [opt "localhostProfile" .text, req "type" .text]

/-- the members that the security settings of pods and containers share -/
def securityMembers : List (String × Bool × Shape) :=
  [opt "appArmorProfile" profile, opt "runAsGroup" .int64, opt "runAsNonRoot" .bool,
   opt "runAsUser" .int64, opt "seLinuxOptions" (.object (texts ["level", "role", "type", "user"])),
   opt "seccompProfile" profile,
   opt "windowsOptions" (.object
     (texts ["gmsaCredentialSpec", "gmsaCredentialSpecName", "runAsUserName"] ++
       flags ["hostProcess"]))]

/-- the security settings of a container -/
def containerSecurity : Shape :=
  .object (securityMembers ++
    flags ["allowPrivilegeEscalation", "privileged", "readOnlyRootFilesystem"] ++
    [opt "capabilities" (.object [opt "add" (.list .text), opt "drop" (.list .text)]),
     opt "procMount" .text])

/-- the security settings of a pod -/
def podSecurity : Shape :=
  .object (securityMembers ++ texts ["fsGroupChangePolicy", "supplementalGroupsPolicy"] ++
    [opt "fsGroup" .int64, opt "supplementalGroups" (.list .int64),
     opt "sysctls" (.list (.object (names ["name", "value"])))])

/-- a key of a configuration or of a secret -/
def keyRef : Shape := .object (names ["key", "name"] ++ flags ["optional"])

/-- the environment of a container -/
def environment : List (String × Bool × Shape) :=
  [opt "env" (.list (.object [req "name" .text, opt "value" .text, opt "valueFrom" (.object
     [opt "configMapKeyRef" keyRef, opt "fieldRef" fieldRef,
      opt "resourceFieldRef" resourceFieldRef, opt "secretKeyRef" keyRef])])),
   opt "envFrom" (.list (.object
     [opt "configMapRef" (.object (names ["name"] ++ flags ["optional"])), opt "prefix" .text,
      opt "secretRef" (.object (names ["name"] ++ flags ["optional"]))]))]

/-- the members of a container except its name and image -/
def containerMembers : List (String × Bool × Shape) :=
  environment ++
  texts ["imagePullPolicy", "restartPolicy", "terminationMessagePath", "terminationMessagePolicy",
    "workingDir"] ++
  flags ["stdin", "stdinOnce", "tty"] ++
  [opt "args" (.list .text), opt "command" (.list .text),
   opt "lifecycle" (.object [opt "postStart" lifecycleHandler, opt "preStop" lifecycleHandler]),
   opt "livenessProbe" probe, opt "readinessProbe" probe, opt "startupProbe" probe,
   opt "ports" (.list (.object ([req "containerPort" .int32] ++ numbers ["hostPort"] ++
     texts ["hostIP", "name", "protocol"]))),
   opt "resizePolicy" (.list (.object (names ["resourceName", "restartPolicy"]))),
   opt "resources" (.object (amounts ++
     [opt "claims" (.list (.object [req "name" .text, opt "request" .text]))])),
   opt "securityContext" containerSecurity,
   opt "volumeDevices" (.list (.object (names ["devicePath", "name"]))),
   opt "volumeMounts" (.list (.object (names ["mountPath", "name"] ++ flags ["readOnly"] ++
     texts ["mountPropagation", "recursiveReadOnly", "subPath", "subPathExpr"])))]

/-- a container whose members all pass through -/
def container (more : List (String × Bool × Shape)) : Shape :=
  .object ([req "name" .text, opt "image" .text] ++ containerMembers ++ more)

/-- conditions on the labels of a node -/
def nodeTerm : Shape :=
  let conditions := Shape.list (.object
    [req "key" .text, req "operator" .text, opt "values" (.list .text)])
  .object [opt "matchExpressions" conditions, opt "matchFields" conditions]

/-- which pods a pod wants near it or far from it -/
def podTerm : Shape :=
  .object [opt "labelSelector" selector, opt "matchLabelKeys" (.list .text),
    opt "mismatchLabelKeys" (.list .text), opt "namespaceSelector" selector,
    opt "namespaces" (.list .text), req "topologyKey" .text]

/-- preferred and required terms about other pods -/
def podAffinity : Shape :=
  .object
    [opt "preferredDuringSchedulingIgnoredDuringExecution" (.list (.object
      [req "podAffinityTerm" podTerm, req "weight" .int32])),
     opt "requiredDuringSchedulingIgnoredDuringExecution" (.list podTerm)]

/-- where a pod wants to run -/
def affinity : Shape :=
  .object
    [opt "nodeAffinity" (.object
      [opt "preferredDuringSchedulingIgnoredDuringExecution" (.list (.object
        [req "preference" nodeTerm, req "weight" .int32])),
       opt "requiredDuringSchedulingIgnoredDuringExecution" (.object
        [req "nodeSelectorTerms" (.list nodeTerm)])]),
     opt "podAffinity" podAffinity, opt "podAntiAffinity" podAffinity]

/-- the members of a pod except its containers -/
def podMembers : List (String × Bool × Shape) :=
  texts ["dnsPolicy", "hostname", "nodeName", "preemptionPolicy", "priorityClassName",
    "restartPolicy", "runtimeClassName", "schedulerName", "serviceAccount", "serviceAccountName",
    "subdomain"] ++
  flags ["automountServiceAccountToken", "enableServiceLinks", "hostIPC", "hostNetwork", "hostPID",
    "hostUsers", "setHostnameAsFQDN", "shareProcessNamespace"] ++
  [opt "activeDeadlineSeconds" .int64, opt "affinity" affinity,
   opt "dnsConfig" (.object [opt "nameservers" (.list .text),
     opt "options" (.list (.object (texts ["name", "value"]))), opt "searches" (.list .text)]),
   opt "ephemeralContainers" (.list (container (texts ["targetContainerName"]))),
   opt "hostAliases" (.list (.object [opt "hostnames" (.list .text), req "ip" .text])),
   opt "imagePullSecrets" (.list localRef), opt "initContainers" (.list (container [])),
   opt "nodeSelector" (.dict .text), opt "os" (.object (names ["name"])),
   opt "overhead" (.dict .text), opt "priority" .int32,
   opt "readinessGates" (.list (.object (names ["conditionType"]))),
   opt "resourceClaims" (.list (.object (names ["name"] ++
     texts ["resourceClaimName", "resourceClaimTemplateName"]))),
   opt "schedulingGates" (.list (.object (names ["name"]))),
   opt "securityContext" podSecurity, opt "terminationGracePeriodSeconds" .int64,
   opt "tolerations" (.list (.object (texts ["effect", "key", "operator", "value"] ++
     [opt "tolerationSeconds" .int64]))),
   opt "topologySpreadConstraints" (.list (.object
     [opt "labelSelector" selector, opt "matchLabelKeys" (.list .text), req "maxSkew" .int32,
      opt "minDomains" .int32, opt "nodeAffinityPolicy" .text, opt "nodeTaintsPolicy" .text,
      req "topologyKey" .text, req "whenUnsatisfiable" .text])),
   opt "volumes" (.list volume)]

end Shape

/-- a container of a pod -/
structure Container where
  name : String := ""
  image : Option String := none
  rest : List (String × Json) := []

/-- what a pod runs -/
structure PodSpec where
  containers : List Container := []
  rest : List (String × Json) := []

/-- what pods are made from -/
structure PodTemplate where
  metadata : Option Json := none
  spec : Option PodSpec := none

namespace Container

def ofJson? (j : Json) : Option Container := do
  let fs ← Shape.open? j
  some {
    name := ← Shape.memberOr fs "name" "" Json.str?
    image := ← Shape.member? fs "image" Json.str?
    rest := ← Shape.readMembers Shape.containerMembers fs }

def toJson (c : Container) : Json :=
  .obj (("name", .str c.name) :: (c.image.map fun i => ("image", Json.str i)).toList ++ c.rest)

end Container

namespace PodSpec

def ofJson? (j : Json) : Option PodSpec := do
  let fs ← Shape.open? j
  some {
    containers := ← Shape.memberOr fs "containers" [] (Json.list? Container.ofJson?)
    rest := ← Shape.readMembers Shape.podMembers fs }

def toJson (s : PodSpec) : Json :=
  .obj (("containers", .arr (s.containers.map Container.toJson)) :: s.rest)

end PodSpec

namespace PodTemplate

def ofJson? (j : Json) : Option PodTemplate := do
  let fs ← Shape.open? j
  some {
    metadata := ← Shape.member? fs "metadata" (Shape.read Shape.metadata)
    spec := ← Shape.member? fs "spec" PodSpec.ofJson? }

def toJson (t : PodTemplate) : Json :=
  .ofFields [("metadata", t.metadata), ("spec", t.spec.map PodSpec.toJson)]

end PodTemplate

end ReleaseUpgrade
