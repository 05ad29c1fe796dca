/-
# Host.VmTemplate -- the Lima template of a VM

`document` is the JSON document that `render` in `src/vm_template.rs` prints for
the creation settings.  The scripts and units it embeds are `Scripts`: texts that
stand in the source or are put in by its build.
-/
import Luhmen.Theory.JsonValue

namespace Luhmen.Host

open Luhmen.Theory

set_option autoImplicit false

structure Mount where
  path : String
  writable : Bool
  deriving DecidableEq, Repr

/-- The creation settings of `config.json`. -/
structure Config where
  schemaVersion : Nat
  cpus : Nat
  memoryGib : Nat
  diskGib : Nat
  mounts : List Mount
  nestedVirtualization : Bool
  deriving DecidableEq, Repr

/-- The constants of `vm_template.rs` that hold scripts and units. -/
structure Scripts where
  systemdLogindCompat : String
  dependencies : String
  installFirecracker : String
  microvmdService : String
  microvmdLauncher : String
  microvmHelper : String
  dockerConfigSignature : String
  dockerShutdownBase64 : String
  dockerSocket : String
  dockerService : String
  installDocker : String

namespace VmTemplate

def limaVersion : String := "2.2.0"
def imageUrl : String := "https://cloud-images.ubuntu.com/minimal/releases/noble/release-20260905/ubuntu-24.04-minimal-cloudimg-arm64.img"
def imageMirrorUrl : String := "https://mirrors.nju.edu.cn/ubuntu-cloud-images/minimal/releases/noble/release-20260905/ubuntu-24.04-minimal-cloudimg-arm64.img"
def imageSha256 : String := "8b6e0e145ae2ce681d959b2b3aabcf724b027cbffff9ec8ba4d7dc789a3e6a98"
def dockerVersion : String := "29.8.0"
def dockerUrl : String := "https://download.docker.com/linux/static/stable/aarch64/docker-29.8.0.tgz"
def dockerSha256 : String := "1462a696be6029bd478d7d60d7f3c31cdd15affd1178a4a278aaf4a1d1b7f8b5"
def ubuntuSnapshot : String := "20260906T000000Z"
def firecrackerVersion : String := "1.16.1"
def firecrackerUrl : String := "https://github.com/firecracker-microvm/firecracker/releases/download/v1.16.1/firecracker-v1.16.1-aarch64.tgz"
def firecrackerSha256 : String := "8d0e69f6d6f9a1724551f607f18504052c16c1828ee3d4d7b6e6c73380871e0e"

variable {F : Type}

/-- The entries of the document below are all objects, written with `json!`. -/
def entry (members : List (String × Json F)) : Json F :=
  .ofMembers members

def mount (m : Mount) : Json F :=
  entry [("location", .string m.path), ("mountPoint", .string m.path), ("writable", .bool m.writable)]

/-- A file put into the guest. -/
def dataFile (path content owner permissions : String) : Json F :=
  entry [("mode", .string "data"), ("path", .string path), ("content", .string content),
    ("owner", .string owner), ("permissions", .string permissions)]

def script (mode text : String) : Json F :=
  entry [("mode", .string mode), ("script", .string text)]

/-- `str::replace`, behind so many characters of a match that is being skipped. -/
def replaceFrom (old new : List Char) : Nat → List Char → List Char
  | _, [] => []
  | 0, c :: rest =>
      if old.isPrefixOf (c :: rest) then new ++ replaceFrom old new (old.length - 1) rest
      else c :: replaceFrom old new 0 rest
  | skip + 1, _ :: rest => replaceFrom old new skip rest

def replace (text old new : String) : String :=
  String.ofList (replaceFrom old.toList new.toList 0 text.toList)

def dependencies (scripts : Scripts) (nested : Bool) : String :=
  replace
    (replace (replace scripts.dependencies "@SNAPSHOT@" ubuntuSnapshot) "@MICROVM_CHECK@"
      (if nested then " || ! command -v socat >/dev/null 2>&1" else ""))
    "@MICROVM_PACKAGES@" (if nested then " socat" else "")

def install (text version url sha256 : String) : String :=
  replace (replace (replace text "@VERSION@" version) "@URL@" url) "@SHA256@" sha256

def daemonJson : String :=
  "\x7b\"data-root\":\"/var/lib/docker\",\"log-driver\":\"local\",\"live-restore\":true,\"features\":\x7b\"containerd-snapshotter\":true\x7d\x7d\n"

def provision (scripts : Scripts) (config : Config) : List (Json F) :=
  [script "boot" scripts.systemdLogindCompat,
    entry [("mode", .string "dependency"), ("skipDefaultDependencyResolution", .bool false),
      ("script", .string (dependencies scripts config.nestedVirtualization))],
    dataFile "/etc/docker/daemon.json" daemonJson "root:root" "0600",
    dataFile "/usr/local/libexec/luhmen-docker-config-signature" scripts.dockerConfigSignature
      "root:root" "0755",
    dataFile "/usr/local/libexec/luhmen-docker-shutdown.b64" scripts.dockerShutdownBase64
      "root:root" "0600",
    dataFile "/etc/systemd/system/docker.socket" scripts.dockerSocket "root:root" "0644",
    dataFile "/etc/systemd/system/docker.service" scripts.dockerService "root:root" "0644",
    script "system" (install scripts.installDocker dockerVersion dockerUrl dockerSha256)] ++
  if config.nestedVirtualization then
    [dataFile "/usr/local/libexec/luhmen-microvmd" scripts.microvmHelper "root:root" "0755",
      dataFile "/usr/local/libexec/luhmen-microvmd-service" scripts.microvmdLauncher
        "root:root" "0755",
      dataFile "/etc/systemd/system/luhmen-microvmd.service" scripts.microvmdService
        "root:root" "0644",
      script "system" (install scripts.installFirecracker firecrackerVersion firecrackerUrl
        firecrackerSha256)]
  else []

def portForwards (config : Config) : List (Json F) :=
  [entry [("guestSocket", .string "/var/run/docker.sock"),
      ("hostSocket", .string "\x7b\x7b.Dir\x7d\x7d/sock/docker.sock")],
    entry [("guestIP", .string "127.0.0.1"), ("guestPortRange", .array [.int 1, .int 65535]),
      ("hostIP", .string "127.0.0.1"), ("hostPortRange", .array [.int 1, .int 65535]),
      ("proto", .string "any")]] ++
  if config.nestedVirtualization then
    [entry [("guestSocket", .string "/run/luhmen/microvmd.sock"),
      ("hostSocket", .string "\x7b\x7b.Dir\x7d\x7d/sock/microvmd.sock")]]
  else []

def image (url : String) : Json F :=
  entry [("location", .string url), ("arch", .string "aarch64"),
    ("digest", .string ("sha256:" ++ imageSha256))]

def probe : Json F :=
  entry [("mode", .string "readiness"), ("description", .string "Docker Engine API is ready"),
    ("script", .string "#!/bin/sh\nset -eu\nresponse=$(curl --fail --silent --show-error --max-time 5 --unix-socket /var/run/docker.sock http://localhost/_ping)\ntest \"$response\" = OK\n"),
    ("hint", .string "Inspect guest service logs with: luhmen shell sudo journalctl -u docker.service --no-pager")]

/-- The members of the document, as `render` lists them. -/
def members (scripts : Scripts) (config : Config) : List (String × Json F) :=
  [("minimumLimaVersion", .string limaVersion),
    ("vmType", .string "vz"),
    ("arch", .string "aarch64"),
    ("os", .string "Linux"),
    ("nestedVirtualization", .bool config.nestedVirtualization),
    ("images", .array [image imageUrl, image imageMirrorUrl]),
    ("cpus", .int config.cpus),
    ("memory", .string (toString config.memoryGib ++ "GiB")),
    ("disk", .string (toString config.diskGib ++ "GiB")),
    ("mountType", .string "virtiofs"),
    ("mountInotify", .bool true),
    ("mounts", .array (config.mounts.map mount)),
    ("containerd", entry [("system", .bool false), ("user", .bool false)]),
    ("upgradePackages", .bool false),
    ("ssh", entry [("loadDotSSHPubKeys", .bool false), ("forwardAgent", .bool false),
      ("overVsock", .bool false)]),
    ("vmOpts", entry [("vz", entry [("rosetta", entry [("enabled", .bool false),
      ("binfmt", .bool false)])])]),
    ("hostResolver", entry [("enabled", .bool true), ("ipv6", .bool false),
      ("hosts", entry [("host.docker.internal", .string "host.lima.internal"),
        ("gateway.docker.internal", .string "host.lima.internal")])]),
    ("propagateProxyEnv", .bool true),
    ("portForwards", .array (portForwards config)),
    ("provision", .array (provision scripts config)),
    ("probes", .array [probe])]

def document (scripts : Scripts) (config : Config) : Json F :=
  .ofMembers (members scripts config)

theorem document_provision (scripts : Scripts) (config : Config) :
    (document scripts config : Json F).get "provision" = .array (provision scripts config) := by
  rw [document, Json.get_ofMembers]
  simp [members, Json.find]

end VmTemplate

end Luhmen.Host
