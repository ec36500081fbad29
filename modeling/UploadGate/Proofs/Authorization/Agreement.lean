/-
  UploadGate/Proofs/Authorization/Agreement.lean
  ==============================================
  **Whether the header of an upload says what its metadata says.**

  The metadata holds the address and the identity as texts, the header as
  octets.  What a client sent was octets first and agrees.  An account comes out
  of a token as a text, and may hold escapes that are the octets of a character;
  then whoever reads the header finds another account than the one that was
  verified.
-/
import UploadGate.Proofs.Authorization.Vouching

namespace UploadGate.Authorization

open Metadata

variable {config : Config} {depth : Nat} {now : Number} {telemetry : Telemetry} {request : UploadRequest}
  {a : AuthorizedUpload} {client : Metadata} {v : Token.Verification}

/-- What holds of the values of a client holds of all values just when it holds of the
    address and of the identity. -/
theorem Grant.forall_value_iff (g : Grant config depth now request a client v) (P : Text → Prop)
    (hclient : ∀ e ∈ client, P e.2) :
    (∀ e ∈ a.metadata, P e.2) ↔
      P a.remoteIp ∧ (∀ issuer ∈ a.issuer?, P issuer) ∧ ∀ account ∈ a.account?, P account := by
  rw [g.metadata_eq, g.issuer_eq, g.account_eq, vouched, List.forall_mem_append,
    List.forall_mem_cons]
  have hidentity : (∀ e ∈ identityEntries v.identity?, P e.2) ↔
      (∀ issuer ∈ v.identity?.map Prod.fst, P issuer)
        ∧ ∀ account ∈ v.identity?.map Prod.snd, P account := by
    cases v.identity? <;> simp [identityEntries]
  constructor
  · rintro ⟨-, hip, hrest⟩
    exact ⟨hip, hidentity.mp hrest⟩
  · rintro ⟨hip, hrest⟩
    exact ⟨hclient, hip, hidentity.mpr hrest⟩

/-- **When the header agrees with the metadata.**  The header of an upload that was let
    through can be read, and shows the texts of the metadata just when neither the
    address nor the issuer nor the account hides a character. -/
theorem header_agrees_iff (h : (decide config depth now telemetry request).result = .ok a) :
    ∃ m, decode (some a.header) = .ok m
      ∧ ((∀ k, OrderedMap.get? m k = OrderedMap.get? a.metadata k) ↔
        ¬ Utf8.HidesCharacter a.remoteIp ∧ (∀ issuer ∈ a.issuer?, ¬ Utf8.HidesCharacter issuer)
          ∧ ∀ account ∈ a.account?, ¬ Utf8.HidesCharacter account) := by
  obtain ⟨client, v, g⟩ := grant_of_decide h
  refine ⟨rereadAll a.metadata, g.decode_header, ?_⟩
  have hvalue : ∀ e ∈ a.metadata, (reread e.2 = e.2 ↔ ¬ Utf8.HidesCharacter e.2) := by
    intro e he
    obtain ⟨bytes, hbytes⟩ := exists_octets_of_encode g.encoded e he
    exact reread_eq_self_iff hbytes
  have hclient : ∀ e ∈ client, ¬ Utf8.HidesCharacter e.2 := by
    intro e he
    obtain ⟨bytes, hbytes⟩ := (isRead_of_decode g.decoded).exists_bytes e he
    rw [hbytes]
    exact (Utf8.decodeEscaped_eq_self_iff (Utf8.encodeEscaped?_decodeEscaped bytes)).mp rfl
  calc (∀ k, OrderedMap.get? (rereadAll a.metadata) k = OrderedMap.get? a.metadata k)
      ↔ ∀ e ∈ a.metadata, reread e.2 = e.2 := get?_rereadAll_eq_iff g.nodup_keys
    _ ↔ ∀ e ∈ a.metadata, ¬ Utf8.HidesCharacter e.2 := forall₂_congr hvalue
    _ ↔ _ := g.forall_value_iff (fun t => ¬ Utf8.HidesCharacter t) hclient

theorem header_agrees_iff_signed :
    ∃ a m, (decide sharedKeyConfig 900 (.integer 0) noTelemetry escapedAccountRequest).result = .ok a
      ∧ a.account?.isSome = true
      ∧ decode (some a.header) = .ok m
      ∧ ((∀ k, OrderedMap.get? m k = OrderedMap.get? a.metadata k) ↔
        ¬ Utf8.HidesCharacter a.remoteIp ∧ (∀ issuer ∈ a.issuer?, ¬ Utf8.HidesCharacter issuer)
          ∧ ∀ account ∈ a.account?, ¬ Utf8.HidesCharacter account) := by
  obtain ⟨a, -, ha, -, haccount, -⟩ := decide_escapedAccountRequest
  obtain ⟨m, hm, hagrees⟩ := header_agrees_iff ha
  exact ⟨a, m, ha, haccount, hm, hagrees⟩

/-- The header may show another account than the metadata. -/
theorem exists_header_disagrees :
    ∃ a m, (decide sharedKeyConfig 900 (.integer 0) noTelemetry escapedAccountRequest).result = .ok a
      ∧ decode (some a.header) = .ok m
      ∧ OrderedMap.get? m accountKey ≠ OrderedMap.get? a.metadata accountKey := by
  obtain ⟨a, m, ha, hm, -, -, hheader, hmetadata⟩ := decide_escapedAccountRequest
  refine ⟨a, m, ha, hm, ?_⟩
  rw [hheader, hmetadata]
  decide

end UploadGate.Authorization
