/-
  UploadGate/Proofs/ProxyTrust/Canonical.lean
  ===========================================
  **A client that is named in a forwarding header has one name.**

  However a trusted proxy spells the address of a client, what is recorded is the
  canonical text of the address, unwrapped.  So a client is recorded under one
  text, different clients under different texts, and a record that is forwarded
  once more stays as it is.
-/
import UploadGate.Proofs.Address.Canonical
import UploadGate.Proofs.ProxyTrust

namespace UploadGate.ProxyTrust

variable {ranges : List Network} {peer forwarded client : Text}

/-- The header of a trusted peer is accepted, and an upload is recorded as one from `client`. -/
structure Accepts (ranges : List Network) (peer forwarded client : Text) : Prop where
  isTrustedPeer : IsTrustedPeer ranges peer
  ne_nil : forwarded ≠ []
  result : (resolve ranges peer (some forwarded)).result = .ok client

/-- What is recorded is the text of the address in front of the first comma. -/
theorem accepts_iff :
    Accepts ranges peer forwarded client ↔ IsTrustedPeer ranges peer ∧ forwarded ≠ []
      ∧ ∃ address, Address.Spells (foremost forwarded) address ∧ address.unwrapped.text = client := by
  constructor
  · rintro ⟨htrusted, hne, hresult⟩
    refine ⟨htrusted, hne, ?_⟩
    rw [result_resolve_of_trusted htrusted hne] at hresult
    cases hparse : Address.parse? (foremost forwarded) with
    | none =>
      rw [hparse] at hresult
      cases hresult
    | some address =>
      rw [hparse] at hresult
      exact ⟨address, Address.parse?_eq_some_iff.mp hparse, Except.ok.inj hresult⟩
  · rintro ⟨htrusted, hne, address, hspelled, rfl⟩
    refine ⟨htrusted, hne, ?_⟩
    rw [result_resolve_of_trusted htrusted hne, Address.parse?_eq_some_iff.mpr hspelled]
    rfl

/-! ### Forwarding once more -/

theorem comma_not_mem_foremost (forwarded : Text) : CodePoint.ofChar ',' ∉ foremost forwarded := by
  intro hmem
  have hfront : CodePoint.ofChar ',' ∈ forwarded.takeWhile (· ≠ .ofChar ',') :=
    (List.dropWhile_sublist _).subset ((List.rdropWhile_prefix CodePoint.isBlank _).subset hmem)
  have hne := List.mem_takeWhile_imp hfront
  exact of_decide_eq_true hne rfl

theorem foremost_eq_self {t : Text} (hcomma : CodePoint.ofChar ',' ∉ t) (htrimmed : t.IsTrimmed) :
    foremost t = t := by
  have hall : t.takeWhile (· ≠ .ofChar ',') = t := by
    refine List.takeWhile_eq_self_iff.mpr ?_
    intro c hc
    exact decide_eq_true (ne_of_mem_of_not_mem hc hcomma)
  rw [foremost, hall, htrimmed.strip]

/-- The text of an address that a header spells is a header that spells no more than it. -/
theorem foremost_text {address : Address} (h : Address.Spells (foremost forwarded) address) :
    foremost address.unwrapped.text = address.unwrapped.text := by
  have hcomma := comma_not_mem_foremost forwarded
  have htrimmed : (foremost forwarded).IsTrimmed := Text.isTrimmed_strip _
  rcases h.unwrapped with hspelled | ⟨short, hshort⟩
  · exact foremost_eq_self (hspelled.not_mem_text hcomma rfl (by decide) (by decide))
      (hspelled.isTrimmed_text htrimmed)
  · rw [hshort]
    refine foremost_eq_self (Address.not_mem_text4 rfl (by decide)) (Text.isTrimmed_of_forall ?_)
    intro c hc
    rw [← Bool.not_eq_true]
    intro hblank
    exact Address.not_mem_text4 (Address.hexValue?_of_isBlank hblank).1 (Address.hexValue?_of_isBlank hblank).2.2 hc

theorem Accepts.again (h : Accepts ranges peer forwarded client) : Accepts ranges peer client client := by
  obtain ⟨htrusted, -, address, hspelled, rfl⟩ := accepts_iff.mp h
  have hcanonical := hspelled.spells_text_unwrapped
  refine accepts_iff.mpr ⟨htrusted, hcanonical.text_ne_nil, address.unwrapped, ?_, ?_⟩
  · rwa [foremost_text hspelled]
  · rw [Address.unwrapped_unwrapped]

/-! ### One name for each client -/

/-- **Forwarded addresses are canonical.**  What is recorded for an accepted header reads as the
    address that stands in front of the first comma, unwrapped and with its scope, and never as
    one that wraps another.  Forwarded again, it is recorded unchanged.  And two accepted headers,
    from whatever trusted peers, are recorded alike just when the addresses they spell in front
    are the same once they are unwrapped. -/
theorem accepted_client_canonical (h : Accepts ranges peer forwarded client) :
    (∃ address, Address.Spells (foremost forwarded) address
        ∧ Address.parse? client = some address.unwrapped)
      ∧ (∀ bits scope?, Address.parse? client = some (.v6 bits scope?) → Address.mapped? bits = none)
      ∧ Accepts ranges peer client client
      ∧ ∀ (ranges' : List Network) (peer' forwarded' client' : Text),
        Accepts ranges' peer' forwarded' client' →
          (client = client' ↔ ∃ address address', Address.Spells (foremost forwarded) address
            ∧ Address.Spells (foremost forwarded') address' ∧ address.unwrapped = address'.unwrapped) := by
  obtain ⟨-, -, address, hspelled, hclient⟩ := accepts_iff.mp h
  have hcanonical := hspelled.spells_text_unwrapped
  have hparse : Address.parse? client = some address.unwrapped := by
    rw [← hclient, Address.parse?_eq_some_iff.mpr hcanonical]
  refine ⟨⟨address, hspelled, hparse⟩, ?_, h.again, ?_⟩
  · intro bits scope? hread
    exact (Address.mapped?_unwrapped (Option.some.inj (hparse.symm.trans hread))).1
  · intro ranges' peer' forwarded' client' h'
    obtain ⟨-, -, address', hspelled', hclient'⟩ := accepts_iff.mp h'
    have hcanonical' := hspelled'.spells_text_unwrapped
    rw [← hclient, ← hclient', hcanonical.hasProperScope.text_inj hcanonical'.hasProperScope]
    constructor
    · intro hsame
      exact ⟨address, address', hspelled, hspelled', hsame⟩
    · rintro ⟨a, a', ha, ha', hsame⟩
      rwa [hspelled.unique ha, hspelled'.unique ha']

/-- A client with capitals, zeros in front and a short address at its end. -/
theorem accepted_client_canonical_proxies :
    Accepts proxies (Text.of "10.0.0.1:1") (Text.of "2001:0DB8::0.0.0.1%eth0, 10.0.0.2")
        (Text.of "2001:db8::1%eth0")
      ∧ Accepts proxies (Text.of "10.0.0.1:1") (Text.of "2001:db8::1%eth0") (Text.of "2001:db8::1%eth0") := by
  have htrusted : IsTrustedPeer proxies (Text.of "10.0.0.1:1") := by
    have hparse : HostPort.parse (Text.of "10.0.0.1:1") = .ok ⟨Text.of "10.0.0.1", Text.of "1"⟩ := rfl
    rw [isTrustedPeer_iff hparse]
    decide
  have haccepts : Accepts proxies (Text.of "10.0.0.1:1") (Text.of "2001:0DB8::0.0.0.1%eth0, 10.0.0.2")
      (Text.of "2001:db8::1%eth0") := ⟨htrusted, by decide, rfl⟩
  exact ⟨haccepts, (accepted_client_canonical haccepts).2.2.1⟩

end UploadGate.ProxyTrust
