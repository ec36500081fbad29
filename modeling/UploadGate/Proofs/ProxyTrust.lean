/-
  UploadGate/Proofs/ProxyTrust.lean
  =================================
  **Who has a say in the address that an upload came from.**

  A forwarding header counts only from a trusted peer: whatever any other peer
  sends in its place, the outcome is that of its own address alone.  A trusted
  peer has its say with the text in front of the first comma, and no other part
  of the header matters.
-/
import UploadGate.Proofs.Text.Cutting
import UploadGate.ProxyTrust

namespace UploadGate.ProxyTrust

variable {ranges : List Network} {peer : Text}

/-- The host of a peer is written as an address inside one of some ranges. -/
def IsTrustedPeer (ranges : List Network) (peer : Text) : Prop :=
  ∃ hp address, HostPort.parse peer = .ok hp ∧ Address.parse? hp.host = some address
    ∧ ∃ range ∈ ranges, range.contains address.unwrapped = true

/-- The text before the first comma of a forwarding header, without the blanks around it. -/
def foremost (forwarded : Text) : Text := Text.strip (forwarded.takeWhile (· ≠ .ofChar ','))

theorem firstHop_eq (forwarded : Text) : firstHop forwarded = foremost forwarded := by
  rw [firstHop, Text.headD_splitOn]
  rfl

theorem isTrusted_iff {host : Text} :
    isTrusted ranges host = true ↔
      ∃ address, Address.parse? host = some address
        ∧ ∃ range ∈ ranges, range.contains address.unwrapped = true := by
  simp only [isTrusted, addressOf?]
  cases Address.parse? host with
  | none => simp
  | some address => simp

theorem isTrustedPeer_iff {hp : HostPort} (hparse : HostPort.parse peer = .ok hp) :
    IsTrustedPeer ranges peer ↔ isTrusted ranges hp.host = true := by
  rw [isTrusted_iff]
  constructor
  · rintro ⟨hp', address, hparse', haddress, hrange⟩
    obtain rfl := Except.ok.inj (hparse.symm.trans hparse')
    exact ⟨address, haddress, hrange⟩
  · rintro ⟨address, haddress, hrange⟩
    exact ⟨hp, address, hparse, haddress, hrange⟩

theorem address_of_parse_eq_error {e : UploadError} (h : HostPort.parse peer = .error e) :
    ∃ fault, e = .address fault peer := by
  simp only [HostPort.parse] at h
  split at h
  · cases h
  · rename_i fault hfault
    exact ⟨fault, (Except.error.inj h).symm⟩

/-! ### What decides -/

/-- A peer that is not trusted has no say beyond its own address. -/
theorem result_resolve_of_not_trusted (h : ¬ IsTrustedPeer ranges peer) (forwarded? : Option Text) :
    (resolve ranges peer forwarded?).result = (HostPort.parse peer).map HostPort.host := by
  unfold resolve
  cases hparse : HostPort.parse peer with
  | error e => rfl
  | ok hp =>
    rw [isTrustedPeer_iff hparse, Bool.not_eq_true] at h
    cases forwarded? with
    | none => rfl
    | some forwarded =>
      cases forwarded with
      | nil => rfl
      | cons c rest =>
        simp only [h]
        rfl

/-- The header of a trusted peer is read up to its first comma. -/
theorem result_resolve_of_trusted (h : IsTrustedPeer ranges peer) {forwarded : Text} (hne : forwarded ≠ []) :
    (resolve ranges peer (some forwarded)).result =
      (Address.parse? (foremost forwarded)).elim (.error (.forwardedAddress (foremost forwarded)))
        fun address => .ok address.unwrapped.text := by
  obtain ⟨hp, -, hparse, -⟩ := id h
  rw [isTrustedPeer_iff hparse] at h
  cases forwarded with
  | nil => exact absurd rfl hne
  | cons c rest =>
    simp only [resolve, hparse, h, firstHop_eq, addressOf?]
    cases Address.parse? (foremost (c :: rest)) with
    | none => rfl
    | some address => rfl

/-- **A forwarding header has an influence only where it should have one.**  If the peer is not
    trusted, any two headers, also an absent or an empty one, have the same outcome: the host of
    the peer, or what is wrong with the peer's address.  If it is trusted and there is a header,
    the text before the first comma decides, the blanks around it aside, and the outcome is an
    error just when this text is no address. -/
theorem result_resolve_forwarded (ranges : List Network) (peer : Text) :
    (¬ IsTrustedPeer ranges peer → ∀ forwarded? other? : Option Text,
        (resolve ranges peer forwarded?).result = (resolve ranges peer other?).result
          ∧ ((∃ hp, HostPort.parse peer = .ok hp ∧ (resolve ranges peer forwarded?).result = .ok hp.host)
            ∨ ∃ fault, HostPort.parse peer = .error (.address fault peer)
              ∧ (resolve ranges peer forwarded?).result = .error (.address fault peer)))
      ∧ (IsTrustedPeer ranges peer → ∀ forwarded : Text, forwarded ≠ [] →
        (∀ other : Text, other ≠ [] → foremost forwarded = foremost other →
            (resolve ranges peer (some forwarded)).result = (resolve ranges peer (some other)).result)
          ∧ ((∃ e, (resolve ranges peer (some forwarded)).result = .error e)
            ↔ Address.parse? (foremost forwarded) = none)
          ∧ ∀ e, (resolve ranges peer (some forwarded)).result = .error e →
            e = .forwardedAddress (foremost forwarded)) := by
  constructor
  · intro huntrusted forwarded? other?
    rw [result_resolve_of_not_trusted huntrusted, result_resolve_of_not_trusted huntrusted]
    refine ⟨rfl, ?_⟩
    cases hparse : HostPort.parse peer with
    | ok hp => exact Or.inl ⟨hp, rfl, rfl⟩
    | error e =>
      obtain ⟨fault, rfl⟩ := address_of_parse_eq_error hparse
      exact Or.inr ⟨fault, rfl, rfl⟩
  · intro htrusted forwarded hne
    refine ⟨?_, ?_⟩
    · intro other hother hsame
      rw [result_resolve_of_trusted htrusted hne, result_resolve_of_trusted htrusted hother, hsame]
    · rw [result_resolve_of_trusted htrusted hne]
      cases Address.parse? (foremost forwarded) with
      | none =>
        refine ⟨⟨fun _ => rfl, fun _ => ⟨_, rfl⟩⟩, ?_⟩
        intro e he
        exact (Except.error.inj he).symm
      | some address =>
        refine ⟨⟨?_, nofun⟩, nofun⟩
        rintro ⟨e, he⟩
        cases he

def proxies : List Network := [.v4 0x0A000000#32 8]

/-- A stranger's header changes nothing; that of a proxy is read up to its first comma. -/
theorem result_resolve_forwarded_proxies :
    (resolve proxies (Text.of "192.0.2.1:1") none).result
        = (resolve proxies (Text.of "192.0.2.1:1") (some (Text.of "9.9.9.9"))).result
      ∧ Text.of "9.9.9.9, 10.0.0.2" ≠ []
      ∧ (resolve proxies (Text.of "[::ffff:10.0.0.1]:1") (some (Text.of "9.9.9.9, 10.0.0.2"))).result
        = (resolve proxies (Text.of "[::ffff:10.0.0.1]:1") (some (Text.of " 9.9.9.9"))).result := by
  have hstranger : ¬ IsTrustedPeer proxies (Text.of "192.0.2.1:1") := by
    have hparse : HostPort.parse (Text.of "192.0.2.1:1") = .ok ⟨Text.of "192.0.2.1", Text.of "1"⟩ := rfl
    rw [isTrustedPeer_iff hparse]
    decide
  have hproxy : IsTrustedPeer proxies (Text.of "[::ffff:10.0.0.1]:1") := by
    have hparse : HostPort.parse (Text.of "[::ffff:10.0.0.1]:1")
      = .ok ⟨Text.of "::ffff:10.0.0.1", Text.of "1"⟩ := rfl
    rw [isTrustedPeer_iff hparse]
    decide
  have hne : Text.of "9.9.9.9, 10.0.0.2" ≠ [] := by decide
  have huntrusted := (result_resolve_forwarded proxies (Text.of "192.0.2.1:1")).1 hstranger
  have htrusted := (result_resolve_forwarded proxies (Text.of "[::ffff:10.0.0.1]:1")).2 hproxy _ hne
  exact ⟨(huntrusted none (some (Text.of "9.9.9.9"))).1, hne,
    htrusted.1 (Text.of " 9.9.9.9") (by decide) (by decide)⟩

end UploadGate.ProxyTrust
