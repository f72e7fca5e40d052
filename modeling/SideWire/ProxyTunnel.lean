import SideWire.Security

namespace SideWire.ProxyTunnel

open SideWire.ByteString
open SideWire.FrameCodec
open SideWire.PairingStore
open SideWire.RecordLayer
open SideWire.Security

variable (blake3 : Bytes → Bytes)

def proxyPrologue (build : Build) (token : Bytes) (direction : Text) : Bytes :=
  let digest := blake3 (intoBytes "SideWire proxy v1".toList ++ intoBytes direction ++ token)
  intoBytes ("SideWire/proxy/v".toList ++ decimalText build.version.toNat ++ "/".toList ++
    direction ++ "/".toList ++ hexText digest)

inductive ProxyTokenMode
  | expect
  | send
  deriving DecidableEq

/-- The fields of a `ProxyStartRequest` that the handshakes depend on. -/
structure ProxyStartRequest where
  token : Bytes
  tokenMode : ProxyTokenMode
  deriving DecidableEq

/-- The host end of a forward tunnel: its request and its handshake. -/
def startForward (build : Build) (secret : Key) (token : Bytes) :
    ProxyStartRequest × Keying :=
  (⟨token, .expect⟩,
    ⟨.initiator, secret, proxyPrologue blake3 build token "forward".toList⟩)

/-- The host end of a reverse tunnel: its request and its handshake. -/
def startReverse (build : Build) (secret : Key) (token : Bytes) :
    ProxyStartRequest × Keying :=
  (⟨token, .send⟩,
    ⟨.responder, secret, proxyPrologue blake3 build token "reverse".toList⟩)

/-- The device end of a tunnel. -/
def startProxy (build : Build) (secret : Key) (request : ProxyStartRequest) : Keying :=
  match request.tokenMode with
  | .expect =>
      ⟨.responder, secret, proxyPrologue blake3 build request.token "forward".toList⟩
  | .send => ⟨.initiator, secret, proxyPrologue blake3 build request.token "reverse".toList⟩

/-- The two ends of a tunnel can complete a handshake: they take different roles, and
agree on the secret and the prologue. -/
def Agree (host device : Keying) : Prop :=
  host.role ≠ device.role ∧ host.psk = device.psk ∧ host.prologue = device.prologue

/-- Both kinds of tunnel work between a host and a device build. -/
def TunnelsWork (host device : Build) (secret : Key) (token : Bytes) : Prop :=
  Agree (startForward blake3 host secret token).2
      (startProxy blake3 device secret (startForward blake3 host secret token).1) ∧
    Agree (startReverse blake3 host secret token).2
      (startProxy blake3 device secret (startReverse blake3 host secret token).1)

variable {blake3}

theorem version_inj {host device : Build} (h : host.version = device.version) :
    host = device := by
  have hmajor := congrArg protocolMajor h
  have hminor := congrArg protocolMinor h
  simp only [protocolMajor_version, protocolMinor_version] at hmajor hminor
  cases host
  cases device
  simp_all

theorem proxyPrologue_inj {host device : Build} {token : Bytes} {direction : Text}
    (h : proxyPrologue blake3 host token direction =
      proxyPrologue blake3 device token direction) : host = device := by
  have hslash : ∀ value, '/' ∉ decimalText value := not_mem_decimalText rfl
  have hcut : "/".toList = ['/'] := rfl
  have htext := intoBytes_inj h
  simp only [List.append_assoc, hcut, List.singleton_append] at htext
  obtain ⟨hdigits, _⟩ :=
    append_cons_inj (hslash _) (hslash _) (List.append_cancel_left htext)
  exact version_inj (UInt16.toNat_inj.mp (decimalText_inj hdigits))

theorem TunnelsWork.build_eq {host device : Build} {secret : Key} {token : Bytes}
    (h : TunnelsWork blake3 host device secret token) : host = device := by
  obtain ⟨⟨_, _, hprologue⟩, _⟩ := h
  exact proxyPrologue_inj hprologue

/-- Tunnels between builds of one major work exactly if their minors are equal. -/
theorem tunnelsWork_iff_protocolMinor_eq (blake3 : Bytes → Bytes) (host device : Build)
    (hmajor : host.protocolMajor = device.protocolMajor) (secret : Key) (token : Bytes) :
    TunnelsWork blake3 host device secret token ↔
      host.protocolMinor = device.protocolMinor := by
  constructor
  · intro hwork
    rw [hwork.build_eq]
  · intro hminor
    obtain rfl : host = device := by
      cases host
      cases device
      simp_all
    exact ⟨⟨by simp [startForward, startProxy], rfl, rfl⟩,
      ⟨by simp [startReverse, startProxy], rfl, rfl⟩⟩

theorem tunnelsWork_iff_newerHost :
    TunnelsWork (fun _ => []) ⟨1, 3⟩ currentBuild (Vector.replicate 32 0) [] ↔
      (3 : UInt8) = currentBuild.protocolMinor :=
  tunnelsWork_iff_protocolMinor_eq (fun _ => []) ⟨1, 3⟩ currentBuild rfl
    (Vector.replicate 32 0) []

/-- A host one minor ahead agrees with a device of this build on version 1.2 for the
session, and no tunnel between the two works. -/
theorem newerHost_tunnels_fail :
    Build.negotiatedVersion ⟨1, 3⟩ currentBuild.version = some 0x102 ∧
      currentBuild.negotiatedVersion (Build.version ⟨1, 3⟩) = some 0x102 ∧
      ¬ TunnelsWork (fun _ => []) ⟨1, 3⟩ currentBuild (Vector.replicate 32 0) [] := by
  refine ⟨by decide, by decide, ?_⟩
  intro hwork
  have hminor := congrArg Build.protocolMinor hwork.build_eq
  simp [currentBuild] at hminor

end SideWire.ProxyTunnel
