import SideWire.Security

namespace SideWire.SecurityHandshake

open SideWire.ByteString
open SideWire.ByteLink
open SideWire.FrameCodec
open SideWire.PairingStore
open SideWire.RecordLayer
open SideWire.Security

variable {Handshake Cipher : Type}

/-- What one end of a connection runs with. -/
structure Endpoint (Handshake Cipher : Type) where
  snow : Snow Handshake Cipher
  codecs : Codecs
  build : Build
  security : SecurityMode

/-- What is known of a connection once it is secured. -/
structure ConnectionSecurity (Cipher : Type) where
  peerId : DeviceId
  noise : Option (TransportState Cipher)
  sharedSecret : Option Key

/-- Tells the peer why it is turned away, and fails with the same message. -/
def reject {α : Type} (codecs : Codecs) (message : String) : Io String α := do
  writePacket codecs.decision ⟨false, message⟩
  fail message

/-- `Option::context`. -/
def context {α : Type} (value : Option α) (message : String) : Except String α :=
  match value with
  | some value => .ok value
  | none => .error message

/-- The secret of a peer, which secure mode requires and insecure mode does without. -/
def requireSecret (security : SecurityMode) (stored : Except String (Option Key))
    (unpaired : Io String (Option Key)) : Io String (Option Key) :=
  match security with
  | .secure => do
      let secret ← attempt stored
      match secret with
      | some secret => pure (some secret)
      | none => unpaired
  | .insecure => pure none

/-- The Noise handshake of a connection that has a secret. -/
def secureNoise (build : Build) (handshake : Key → Bytes → Io String (TransportState Cipher))
    (secret : Option Key) (peerVersion : UInt16) (initiator responder : DeviceId) :
    Io String (Option (TransportState Cipher)) :=
  match secret with
  | some secret => do
      let version ← attempt (context (build.negotiatedVersion peerVersion)
        "no compatible protocol version")
      let prologue := securityPrologue version initiator responder
      let noise ← handshake secret prologue
      pure (some noise)
  | none => pure none

/-- `accept_security` of the host. -/
def acceptSecurity (host : Endpoint Handshake Cipher) (trust : Trust) :
    Io String (ConnectionSecurity Cipher) := do
  let hostId ← attempt trust.hostId
  writePacket host.codecs.banner ⟨hostId, host.security, host.build.version⟩
  let hello ← readPacket host.codecs.clientHello
  if host.build.protocolCompatible hello.protocolVersion = false then
    reject host.codecs (s!"protocol mismatch: peer {protocolLabel hello.protocolVersion}, " ++
      s!"host {protocolLabel host.build.version}")
  else if hello.security ≠ host.security then
    reject host.codecs
      s!"security mode mismatch: peer {hello.security.asStr}, host {host.security.asStr}"
  else
    let secret ← requireSecret host.security (trust.deviceSecret hello.nodeId)
      (reject host.codecs
        (s!"device {String.ofList (DeviceId.short hello.nodeId)} is not paired; " ++
          "run sidewire pair first"))
    writePacket host.codecs.decision ⟨true, "ok"⟩
    let noise ← secureNoise host.build (noiseResponder host.snow) secret hello.protocolVersion
      hello.nodeId hostId
    pure ⟨hello.nodeId, noise, secret⟩

/-- `connect_security` of the host. -/
def connectSecurity (host : Endpoint Handshake Cipher) (trust : Trust) :
    Io String (ConnectionSecurity Cipher) := do
  let banner ← readPacket host.codecs.banner
  if host.build.protocolCompatible banner.protocolVersion = false then
    fail (s!"protocol mismatch: device {protocolLabel banner.protocolVersion}, " ++
      s!"host {protocolLabel host.build.version}")
  else if banner.security ≠ host.security then
    fail (s!"security mode mismatch: device {banner.security.asStr}, " ++
      s!"host {host.security.asStr}; both sides must explicitly use the same mode")
  else
    let hostId ← attempt trust.hostId
    let secret ← requireSecret host.security (trust.deviceSecret banner.nodeId)
      (fail
        (s!"device {String.ofList (DeviceId.short banner.nodeId)} is not paired; " ++
          "run sidewire pair first"))
    writePacket host.codecs.clientHello ⟨hostId, host.security, host.build.version⟩
    let decision ← readPacket host.codecs.decision
    if decision.accepted = false then fail decision.message
    else
      let noise ← secureNoise host.build (noiseInitiator host.snow) secret
        banner.protocolVersion hostId banner.nodeId
      pure ⟨banner.nodeId, noise, secret⟩

/-- `accept_connection` of the device. -/
def acceptConnection (device : Endpoint Handshake Cipher) (deviceId : DeviceId)
    (pairsDir : Option PairsDir) : Io String (ConnectionSecurity Cipher) := do
  writePacket device.codecs.banner ⟨deviceId, device.security, device.build.version⟩
  let hello ← readPacket device.codecs.clientHello
  if device.build.protocolCompatible hello.protocolVersion = false then
    reject device.codecs (s!"protocol mismatch: host {protocolLabel hello.protocolVersion}, " ++
      s!"device {protocolLabel device.build.version}")
  else if hello.security ≠ device.security then
    reject device.codecs
      s!"security mode mismatch: host {hello.security.asStr}, device {device.security.asStr}"
  else
    let secret ← requireSecret device.security (pairedHostSecret pairsDir hello.nodeId)
      (reject device.codecs
        s!"host {String.ofList (DeviceId.short hello.nodeId)} is not paired")
    writePacket device.codecs.decision ⟨true, "ok"⟩
    let noise ← secureNoise device.build (noiseResponder device.snow) secret
      hello.protocolVersion hello.nodeId deviceId
    pure ⟨hello.nodeId, noise, secret⟩

/-- `connect_connection` of the device. -/
def connectConnection (device : Endpoint Handshake Cipher) (deviceId : DeviceId)
    (pairsDir : Option PairsDir) : Io String (ConnectionSecurity Cipher) := do
  let banner ← readPacket device.codecs.banner
  if device.build.protocolCompatible banner.protocolVersion = false then
    fail (s!"protocol mismatch: host {protocolLabel banner.protocolVersion}, " ++
      s!"device {protocolLabel device.build.version}")
  else if banner.security ≠ device.security then
    fail (s!"security mode mismatch: host {banner.security.asStr}, " ++
      s!"device {device.security.asStr}; both sides must explicitly use the same mode")
  else
    writePacket device.codecs.clientHello ⟨deviceId, device.security, device.build.version⟩
    let decision ← readPacket device.codecs.decision
    if decision.accepted = false then fail decision.message
    else
      let secret ← requireSecret device.security (pairedHostSecret pairsDir banner.nodeId)
        (fail s!"host {String.ofList (DeviceId.short banner.nodeId)} is not paired")
      let noise ← secureNoise device.build (noiseInitiator device.snow) secret
        banner.protocolVersion deviceId banner.nodeId
      pure ⟨banner.nodeId, noise, secret⟩

/-- The prologue of an endpoint, in its role. -/
def prologueOf (role : Role) (version : UInt16) (own peer : DeviceId) : Bytes :=
  match role with
  | .initiator => securityPrologue version own peer
  | .responder => securityPrologue version peer own

/-- What an endpoint may conclude from the announcement of its peer: both use its mode and
major, and in secure mode there is a Noise state keyed with the secret that is stored for
the peer and with a prologue that names both ends in their roles. -/
structure Secured (endpoint : Endpoint Handshake Cipher) (role : Role) (own : DeviceId)
    (stored : DeviceId → Except String (Option Key)) (peerMode : SecurityMode)
    (peerVersion : UInt16) (secured : ConnectionSecurity Cipher) : Prop where
  mode : peerMode = endpoint.security
  compatible : endpoint.build.protocolCompatible peerVersion = true
  secure : endpoint.security = .secure →
    ∃ secret version noise,
      stored secured.peerId = .ok (some secret) ∧
      endpoint.build.negotiatedVersion peerVersion = some version ∧
      secured.sharedSecret = some secret ∧ secured.noise = some noise ∧
      Keyed endpoint.snow ⟨role, secret, prologueOf role version own secured.peerId⟩ noise
  insecure : endpoint.security = .insecure →
    secured.noise = none ∧ secured.sharedSecret = none

@[simp] theorem context_eq_ok {α : Type} {value : Option α} {message : String} {a : α} :
    context value message = .ok a ↔ value = some a := by
  cases value <;> simp [context]

@[simp] theorem not_returns_reject {α : Type} {codecs : Codecs} {message : String} {a : α}
    {link link' : Link} : ¬ Returns (reject codecs message : Io String α) link a link' := by
  simp [reject]

theorem returns_requireSecret {security : SecurityMode}
    {stored : Except String (Option Key)} {unpaired : Io String (Option Key)}
    (hunpaired : ∀ {secret link link'}, ¬ Returns unpaired link secret link')
    {secret : Option Key} {link link' : Link}
    (h : Returns (requireSecret security stored unpaired) link secret link') :
    ((security = .secure ∧ ∃ key, stored = .ok (some key) ∧ secret = some key) ∨
      (security = .insecure ∧ secret = none)) ∧ link' = link := by
  cases security with
  | secure =>
      simp only [requireSecret, returns_bind, returns_attempt] at h
      obtain ⟨found, _, ⟨hstored, rfl⟩, h⟩ := h
      cases found with
      | none => exact (hunpaired h).elim
      | some key =>
          obtain ⟨rfl, rfl⟩ := returns_pure.mp h
          exact ⟨.inl ⟨rfl, key, hstored, rfl⟩, rfl⟩
  | insecure =>
      obtain ⟨rfl, rfl⟩ := returns_pure.mp h
      exact ⟨.inr ⟨rfl, rfl⟩, rfl⟩

theorem returns_secureNoise {build : Build}
    {handshake : Key → Bytes → Io String (TransportState Cipher)} {secret : Key}
    {peerVersion : UInt16} {initiator responder : DeviceId}
    {noise : Option (TransportState Cipher)} {link link' : Link}
    (h : Returns (secureNoise build handshake (some secret) peerVersion initiator responder)
      link noise link') :
    ∃ version state, build.negotiatedVersion peerVersion = some version ∧ noise = some state ∧
      Returns (handshake secret (securityPrologue version initiator responder)) link state
        link' := by
  simp only [secureNoise, returns_bind, returns_attempt, context_eq_ok, returns_pure] at h
  obtain ⟨version, _, ⟨hversion, rfl⟩, state, _, hnoise, rfl, rfl⟩ := h
  exact ⟨version, state, hversion, rfl, hnoise⟩

theorem secureNoise_none {build : Build}
    {handshake : Key → Bytes → Io String (TransportState Cipher)} {peerVersion : UInt16}
    {initiator responder : DeviceId} {noise : Option (TransportState Cipher)}
    {link link' : Link}
    (h : Returns (secureNoise build handshake none peerVersion initiator responder)
      link noise link') : noise = none :=
  (returns_pure.mp h).1

/-- A secret is looked up in secure mode only, and is then the stored one. -/
theorem secured_of_returns {endpoint : Endpoint Handshake Cipher} {role : Role}
    {own peer : DeviceId} {stored : DeviceId → Except String (Option Key)}
    {peerMode : SecurityMode} {peerVersion : UInt16} {secret : Option Key}
    {handshake : Key → Bytes → Io String (TransportState Cipher)}
    {initiator responder : DeviceId} {noise : Option (TransportState Cipher)}
    {link link' : Link}
    (hkeyed : ∀ {psk prologue state link link'},
      Returns (handshake psk prologue) link state link' →
        Keyed endpoint.snow ⟨role, psk, prologue⟩ state)
    (hprologue : ∀ version,
      securityPrologue version initiator responder = prologueOf role version own peer)
    (hcompatible : endpoint.build.protocolCompatible peerVersion = true)
    (hmode : peerMode = endpoint.security)
    (hsecret : (endpoint.security = .secure ∧ ∃ key, stored peer = .ok (some key) ∧
        secret = some key) ∨ (endpoint.security = .insecure ∧ secret = none))
    (h : Returns
      (secureNoise endpoint.build handshake secret peerVersion initiator responder)
      link noise link') :
    Secured endpoint role own stored peerMode peerVersion ⟨peer, noise, secret⟩ := by
  refine ⟨hmode, hcompatible, ?_, ?_⟩
  · intro hsecure
    rcases hsecret with ⟨_, key, hstored, rfl⟩ | ⟨hinsecure, _⟩
    · obtain ⟨version, state, hversion, rfl, hnoise⟩ := returns_secureNoise h
      refine ⟨key, version, state, hstored, hversion, rfl, rfl, ?_⟩
      rw [← hprologue version]
      exact hkeyed hnoise
    · simp [hsecure] at hinsecure
  · intro hinsecure
    rcases hsecret with ⟨hsecure, _⟩ | ⟨_, rfl⟩
    · simp [hinsecure] at hsecure
    · exact ⟨secureNoise_none h, rfl⟩

theorem acceptSecurity_secured {host : Endpoint Handshake Cipher} {trust : Trust}
    {secured : ConnectionSecurity Cipher} {link link' : Link}
    (h : Returns (acceptSecurity host trust) link secured link') :
    ∃ hostId hello rest, trust.hostId = .ok hostId ∧
      Announces host.codecs.clientHello link.incoming hello rest ∧
      secured.peerId = hello.nodeId ∧
      Secured host .responder hostId trust.deviceSecret hello.security hello.protocolVersion
        secured := by
  simp only [acceptSecurity, returns_bind, returns_attempt] at h
  obtain ⟨hostId, _, ⟨hhostId, rfl⟩, _, _, hbanner, hello, after, hread, h⟩ := h
  have hannounces := announces_of_readPacket hread
  rw [incoming_of_writePacket hbanner] at hannounces
  refine ⟨hostId, hello, after.incoming, hhostId, hannounces, ?_⟩
  split_ifs at h with hincompatible hmode
  · exact (not_returns_reject h).elim
  · exact (not_returns_reject h).elim
  · simp only [returns_bind, returns_pure] at h
    obtain ⟨secret, _, hsecret, _, _, _, noise, _, hnoise, rfl, rfl⟩ := h
    exact ⟨rfl, secured_of_returns keyed_of_noiseResponder (fun _ => rfl)
      (Bool.eq_true_of_not_eq_false hincompatible) (not_not.mp hmode)
      (returns_requireSecret not_returns_reject hsecret).1 hnoise⟩

theorem connectSecurity_secured {host : Endpoint Handshake Cipher} {trust : Trust}
    {secured : ConnectionSecurity Cipher} {link link' : Link}
    (h : Returns (connectSecurity host trust) link secured link') :
    ∃ hostId banner rest decision rest', trust.hostId = .ok hostId ∧
      Announces host.codecs.banner link.incoming banner rest ∧
      Announces host.codecs.decision rest decision rest' ∧ decision.accepted = true ∧
      secured.peerId = banner.nodeId ∧
      Secured host .initiator hostId trust.deviceSecret banner.security
        banner.protocolVersion secured := by
  simp only [connectSecurity, returns_bind] at h
  obtain ⟨banner, afterBanner, hbanner, h⟩ := h
  split_ifs at h with hincompatible hmode
  · exact (not_returns_fail h).elim
  · exact (not_returns_fail h).elim
  · simp only [returns_bind, returns_attempt] at h
    obtain ⟨hostId, _, ⟨hhostId, rfl⟩, secret, _, hsecret, _, _, hhello, decision,
      afterDecision, hdecision, h⟩ := h
    obtain ⟨hstored, rfl⟩ := returns_requireSecret not_returns_fail hsecret
    have hannounces := announces_of_readPacket hdecision
    rw [incoming_of_writePacket hhello] at hannounces
    split_ifs at h with haccepted
    · exact (not_returns_fail h).elim
    · simp only [returns_bind, returns_pure] at h
      obtain ⟨noise, _, hnoise, rfl, rfl⟩ := h
      exact ⟨hostId, banner, _, decision, afterDecision.incoming, hhostId,
        announces_of_readPacket hbanner, hannounces,
        Bool.eq_true_of_not_eq_false haccepted, rfl,
        secured_of_returns keyed_of_noiseInitiator (fun _ => rfl)
          (Bool.eq_true_of_not_eq_false hincompatible) (not_not.mp hmode) hstored hnoise⟩

theorem acceptConnection_secured {device : Endpoint Handshake Cipher} {deviceId : DeviceId}
    {pairsDir : Option PairsDir} {secured : ConnectionSecurity Cipher} {link link' : Link}
    (h : Returns (acceptConnection device deviceId pairsDir) link secured link') :
    ∃ hello rest, Announces device.codecs.clientHello link.incoming hello rest ∧
      secured.peerId = hello.nodeId ∧
      Secured device .responder deviceId (pairedHostSecret pairsDir) hello.security
        hello.protocolVersion secured := by
  simp only [acceptConnection, returns_bind] at h
  obtain ⟨_, _, hbanner, hello, after, hread, h⟩ := h
  have hannounces := announces_of_readPacket hread
  rw [incoming_of_writePacket hbanner] at hannounces
  refine ⟨hello, after.incoming, hannounces, ?_⟩
  split_ifs at h with hincompatible hmode
  · exact (not_returns_reject h).elim
  · exact (not_returns_reject h).elim
  · simp only [returns_bind, returns_pure] at h
    obtain ⟨secret, _, hsecret, _, _, _, noise, _, hnoise, rfl, rfl⟩ := h
    exact ⟨rfl, secured_of_returns keyed_of_noiseResponder (fun _ => rfl)
      (Bool.eq_true_of_not_eq_false hincompatible) (not_not.mp hmode)
      (returns_requireSecret not_returns_reject hsecret).1 hnoise⟩

theorem connectConnection_secured {device : Endpoint Handshake Cipher}
    {deviceId : DeviceId} {pairsDir : Option PairsDir} {secured : ConnectionSecurity Cipher}
    {link link' : Link}
    (h : Returns (connectConnection device deviceId pairsDir) link secured link') :
    ∃ banner rest decision rest',
      Announces device.codecs.banner link.incoming banner rest ∧
      Announces device.codecs.decision rest decision rest' ∧ decision.accepted = true ∧
      secured.peerId = banner.nodeId ∧
      Secured device .initiator deviceId (pairedHostSecret pairsDir) banner.security
        banner.protocolVersion secured := by
  simp only [connectConnection, returns_bind] at h
  obtain ⟨banner, afterBanner, hbanner, h⟩ := h
  split_ifs at h with hincompatible hmode
  · exact (not_returns_fail h).elim
  · exact (not_returns_fail h).elim
  · simp only [returns_bind] at h
    obtain ⟨_, _, hhello, decision, afterDecision, hdecision, h⟩ := h
    have hannounces := announces_of_readPacket hdecision
    rw [incoming_of_writePacket hhello] at hannounces
    split_ifs at h with haccepted
    · exact (not_returns_fail h).elim
    · simp only [returns_bind, returns_pure] at h
      obtain ⟨secret, _, hsecret, noise, _, hnoise, rfl, rfl⟩ := h
      exact ⟨banner, _, decision, afterDecision.incoming,
        announces_of_readPacket hbanner, hannounces,
        Bool.eq_true_of_not_eq_false haccepted, rfl,
        secured_of_returns keyed_of_noiseInitiator (fun _ => rfl)
          (Bool.eq_true_of_not_eq_false hincompatible) (not_not.mp hmode)
          (returns_requireSecret not_returns_fail hsecret).1 hnoise⟩

/-- Every way to secure a connection fails, or returns what `Secured` says of the peer's
announcement. -/
theorem security_fails_closed (host device : Endpoint Handshake Cipher) (trust : Trust)
    (deviceId : DeviceId) (pairsDir : Option PairsDir) (link link' : Link)
    (secured : ConnectionSecurity Cipher) :
    (Returns (acceptSecurity host trust) link secured link' →
      ∃ hostId hello rest, trust.hostId = .ok hostId ∧
        Announces host.codecs.clientHello link.incoming hello rest ∧
        secured.peerId = hello.nodeId ∧
        Secured host .responder hostId trust.deviceSecret hello.security
          hello.protocolVersion secured) ∧
    (Returns (connectSecurity host trust) link secured link' →
      ∃ hostId banner rest decision rest', trust.hostId = .ok hostId ∧
        Announces host.codecs.banner link.incoming banner rest ∧
        Announces host.codecs.decision rest decision rest' ∧ decision.accepted = true ∧
        secured.peerId = banner.nodeId ∧
        Secured host .initiator hostId trust.deviceSecret banner.security
          banner.protocolVersion secured) ∧
    (Returns (acceptConnection device deviceId pairsDir) link secured link' →
      ∃ hello rest, Announces device.codecs.clientHello link.incoming hello rest ∧
        secured.peerId = hello.nodeId ∧
        Secured device .responder deviceId (pairedHostSecret pairsDir) hello.security
          hello.protocolVersion secured) ∧
    (Returns (connectConnection device deviceId pairsDir) link secured link' →
      ∃ banner rest decision rest',
        Announces device.codecs.banner link.incoming banner rest ∧
        Announces device.codecs.decision rest decision rest' ∧ decision.accepted = true ∧
        secured.peerId = banner.nodeId ∧
        Secured device .initiator deviceId (pairedHostSecret pairsDir) banner.security
          banner.protocolVersion secured) :=
  ⟨acceptSecurity_secured, connectSecurity_secured, acceptConnection_secured,
    connectConnection_secured⟩

end SideWire.SecurityHandshake
