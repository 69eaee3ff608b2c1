import ReleaseUpgrade.NodePlan.Build
import ReleaseUpgrade.Object.Secret

/-!
# The upgrade script

The script that moves a node to the operating system of a release, made from a template with five
placeholders, and the secret that carries it to the nodes.
-/

namespace ReleaseUpgrade.Script

/-- the lines of the script, with placeholders in doubled braces -/
def templateLines : List String :=
  ["#!/bin/sh",
   "set -e",
   "",
   "RELEASE_CPE=\"{{CPE_SCHEME}}\"",
   "RELEASE_VERSION=\"{{VERSION}}\"",
   "ZYPPER_ID=\"{{ZYPPER_ID}}\"",
   "REPO_GPG_KEY=\"{{REPO_GPG_PATH}}\"",
   "SUPPORTED_ARCHS=\"{{SUPPORTED_ARCHS}}\"",
   "",
   "CURRENT_CPE=$(grep '^CPE_NAME=' /etc/os-release | cut -d= -f2 | tr -d '\"')",
   "if [ \"${CURRENT_CPE}\" = \"${RELEASE_CPE}\" ]; then",
   "    echo \"Operating system is already at ${RELEASE_CPE}, nothing to do\"",
   "    exit 0",
   "fi",
   "",
   "SYSTEM_ARCH=$(arch)",
   "ARCH_SUPPORTED=false",
   "for ARCH in ${SUPPORTED_ARCHS}; do",
   "    if [ \"${ARCH}\" = \"${SYSTEM_ARCH}\" ]; then",
   "        ARCH_SUPPORTED=true",
   "        break",
   "    fi",
   "done",
   "",
   "if [ \"${ARCH_SUPPORTED}\" != \"true\" ]; then",
   "    echo \"Architecture ${SYSTEM_ARCH} is not supported by release ${RELEASE_VERSION} (supported: ${SUPPORTED_ARCHS})\"",
   "    exit 1",
   "fi",
   "",
   "rpm --import \"${REPO_GPG_KEY}\"",
   "",
   "EXECUTE_MIGRATION=false",
   "if command -v transactional-update >/dev/null 2>&1; then",
   "    if [ \"$(rpm -q --queryformat '%{VERSION}' \"${ZYPPER_ID}-release\")\" != \"${RELEASE_VERSION}\" ]; then",
   "        EXECUTE_MIGRATION=true",
   "    fi",
   "fi",
   "",
   "if [ \"${EXECUTE_MIGRATION}\" = \"true\" ]; then",
   "    transactional-update --continue run zypper migration \\",
   "        --non-interactive --product \"${ZYPPER_ID}/${RELEASE_VERSION}/${SYSTEM_ARCH}\" --root /",
   "else",
   "    transactional-update cleanup up",
   "fi",
   "",
   "systemctl reboot",
   ""]

/-- the script with its placeholders -/
def template : String := Text.joinWith "\n" templateLines

/-- the placeholders with the values that take their places -/
def substitutions (os : OperatingSystem) : List (String × String) :=
  [("{{CPE_SCHEME}}", os.cpeScheme),
   ("{{VERSION}}", os.version),
   ("{{ZYPPER_ID}}", os.zypperId),
   ("{{REPO_GPG_PATH}}", os.repoGpgPath),
   ("{{SUPPORTED_ARCHS}}", Text.joinWith " " (os.supportedArchs.map Arch.long))]

/-- the script for an operating system: the placeholders are replaced one after the other -/
def render (os : OperatingSystem) : String :=
  (substitutions os).foldl (fun script s => Text.replaceAll s.1 s.2 script) template

/-- the secret that carries the script to the nodes -/
def secret (settings : Settings) (os : OperatingSystem) (suffix : String)
    (identity : Dict String) : Secret where
  metadata := NodePlan.markedMetadata (Naming.osSecret suffix) settings.upgradeNamespace identity
  type := some "Opaque"
  stringData := some [(NodePlan.scriptName, render os)]

end ReleaseUpgrade.Script
