/-
  UploadGate/Proofs/Config/Environment.lean
  =========================================
  **What a server may be configured with at its start.**

  Every setting is checked when the environment is read, and each check is one
  lemma about what is read: the lists, the secrets, the ranges and the counts.  A
  configuration that comes out is therefore `IsSound`.  The size is the setting
  that is not checked in this way.  An infinite one ends the start in a failure
  that is none of the configuration, and a negative one is taken; apart from these
  a start is closed (`startup_closed_iff`).
-/
import UploadGate.Proofs.Config.Size
import UploadGate.Proofs.ProxyTrust.Ranges
import UploadGate.Proofs.Text.Utf8

namespace UploadGate

/-! ### Keys of issuers -/

theorem Utf8.octets_ne_nil (c : CodePoint) : Utf8.octets c ≠ [] := by
  unfold Utf8.octets
  dsimp only
  split
  · exact List.cons_ne_nil _ _
  · split
    · exact List.cons_ne_nil _ _
    · split
      · exact List.cons_ne_nil _ _
      · exact List.cons_ne_nil _ _

/-! ### Ranges -/

/-- No bit behind the prefix of a range is set. -/
def Network.IsCleared : Network → Prop
  | .v4 bits length => ∀ i, length ≤ i → bits.getMsbD i = false
  | .v6 bits _ length => ∀ i, length ≤ i → bits.getMsbD i = false

theorem Network.getMsbD_and_mask {w k i : Nat} (hk : k ≤ w) (hi : k ≤ i) (bits : BitVec w) :
    (bits &&& mask w k).getMsbD i = false := by
  rw [BitVec.getMsbD_and, getMsbD_mask hk, decide_eq_false (Nat.not_lt.mpr hi), Bool.and_false]

theorem Network.isCleared_ofPrefix {p : Address} {k : Nat} (hk : k ≤ p.width) : (ofPrefix p k).IsCleared := by
  cases p with
  | v4 bits =>
    intro i hi
    exact getMsbD_and_mask hk hi bits
  | v6 bits scope? =>
    intro i hi
    exact getMsbD_and_mask hk hi bits

namespace Config

variable {env : Environment} {name : String} {α : Type}

theorem isCleared_of_parseTrustedRanges {texts : List Text} {ranges : List Network}
    (h : parseTrustedRanges texts = .ok ranges) {range : Network} (hrange : range ∈ ranges) :
    range.IsCleared := by
  obtain ⟨t, -, -, p, k, hdenotes, rfl⟩ := (mem_parseTrustedRanges_iff h).mp hrange
  exact Network.isCleared_ofPrefix hdenotes.le_width

/-! ### Lists -/

/-- An item of a list is trimmed, holds something, and is part of the list. -/
theorem spec_of_mem_items {t item : Text} (h : item ∈ items t) :
    item ≠ [] ∧ item.IsTrimmed ∧ ∀ c ∈ item, c ∈ t := by
  obtain ⟨piece, hpiece, hne, rfl⟩ := mem_stripped_iff.mp h
  refine ⟨?_, Text.isTrimmed_strip piece, ?_⟩
  · rw [ne_eq, Text.strip_eq_nil_iff, hne]
    exact Bool.false_ne_true
  · intro c hc
    rw [← Text.join_splitOn comma t]
    exact Text.mem_join hpiece (Text.mem_of_mem_strip hc)

/-! ### Secrets -/

theorem parseIssuerSecret_eq_ok {entry : Text} {e : Text × Text} (h : parseIssuerSecret entry = .ok e) :
    e.1 ≠ [] ∧ e.1.IsTrimmed ∧ e.2 ≠ [] ∧ ∀ c ∈ e.2, c ∈ entry := by
  unfold parseIssuerSecret at h
  split at h
  · cases h
  · rename_i issuer secret hcut
    split at h
    · cases h
    · rename_i hgiven
      obtain rfl := Except.ok.inj h
      obtain ⟨rfl, -⟩ := Text.cut?_eq_some_iff.mp hcut
      simp only [Bool.or_eq_true, List.isEmpty_iff, not_or] at hgiven
      refine ⟨hgiven.1, Text.isTrimmed_strip issuer, hgiven.2, ?_⟩
      intro c hc
      exact List.mem_append_right issuer (List.mem_cons_of_mem _ hc)

theorem spec_of_mem_parseIssuerSecrets {t : Text} {secrets : OrderedMap Text Text}
    (h : parseIssuerSecrets t = .ok secrets) {e : Text × Text} (he : e ∈ secrets) :
    e.1 ≠ [] ∧ e.1.IsTrimmed ∧ e.2 ≠ [] ∧ ∀ c ∈ e.2, c ∈ t := by
  obtain ⟨pairs, hpairs, rfl⟩ := map_eq_ok_iff.mp h
  rcases OrderedMap.mem_or_mem_of_mem_setAll he with hnone | hpair
  · cases hnone
  · obtain ⟨entry, hentry, hread⟩ := (mem_iff_of_mapM_eq_ok hpairs).mp hpair
    obtain ⟨hissuer, htrimmed, hsecret, hmem⟩ := parseIssuerSecret_eq_ok hread
    exact ⟨hissuer, htrimmed, hsecret, fun c hc => (spec_of_mem_items hentry).2.2 c (hmem c hc)⟩

theorem secretKey_of_plain {secret : Text} (hplain : secret.any CodePoint.isSurrogate = false) :
    secretKey secret = .ok (secret.flatMap Utf8.octets) := by
  unfold secretKey
  rw [Utf8.encode?_eq_some_iff.mpr ⟨hplain, rfl⟩]

theorem exists_registryOf {secrets : OrderedMap Text Text}
    (hplain : ∀ e ∈ secrets, e.2.any CodePoint.isSurrogate = false) :
    ∃ registry, registryOf secrets = .ok registry := by
  apply exists_mapM_eq_ok_iff.mpr
  rintro ⟨issuer, secret⟩ he
  refine ⟨(issuer, secret.flatMap Utf8.octets), ?_⟩
  exact map_eq_ok_iff.mpr ⟨_, secretKey_of_plain (hplain _ he), rfl⟩

theorem spec_of_mem_registryOf {secrets : OrderedMap Text Text} {registry : Registry}
    (h : registryOf secrets = .ok registry) {e : Text × Bytes} (he : e ∈ registry) :
    ∃ secret, (e.1, secret) ∈ secrets ∧ secretKey secret = .ok e.2 := by
  obtain ⟨⟨issuer, secret⟩, hpair, hentry⟩ := (mem_iff_of_mapM_eq_ok h).mp he
  obtain ⟨key, hkey, rfl⟩ := map_eq_ok_iff.mp hentry
  exact ⟨secret, hpair, hkey⟩

theorem ne_nil_of_secretKey {secret : Text} {key : Bytes} (h : secretKey secret = .ok key)
    (hne : secret ≠ []) : key ≠ [] := by
  unfold secretKey at h
  split at h
  · rename_i key' hencode
    obtain rfl := Except.ok.inj h
    obtain ⟨-, rfl⟩ := Utf8.encode?_eq_some_iff.mp hencode
    obtain ⟨c, hc⟩ := List.exists_mem_of_ne_nil secret hne
    intro hnil
    exact Utf8.octets_ne_nil c (List.flatMap_eq_nil_iff.mp hnil c hc)
  · cases h

/-! ### Settings -/

theorem setting_eq_ok_iff {default value : α} {parse : Text → Except Failure α} :
    setting env name default parse = .ok value
      ↔ (nonempty? env name = none ∧ value = default)
        ∨ ∃ t, nonempty? env name = some t ∧ parse t = .ok value := by
  unfold setting
  cases nonempty? env name with
  | none => simp [eq_comm]
  | some t => simp

theorem setting_eq_error_iff {default : α} {parse : Text → Except Failure α} {failure : Failure} :
    setting env name default parse = .error failure
      ↔ ∃ t, nonempty? env name = some t ∧ parse t = .error failure := by
  unfold setting
  cases nonempty? env name with
  | none => simp
  | some t => simp

/-- A setting that is read by a reader of the configuration fails for a fault of it alone. -/
theorem fault_of_setting {default : α} {parse : Text → Except ConfigFault α} {failure : Failure}
    (h : setting env name default (reading parse) = .error failure) : ∃ fault, failure = .config fault := by
  obtain ⟨t, -, hfailed⟩ := setting_eq_error_iff.mp h
  obtain ⟨fault, -, rfl⟩ := mapError_eq_error_iff.mp hfailed
  exact ⟨fault, rfl⟩

theorem one_le_of_countSetting {default count : Int} (hdefault : 1 ≤ default)
    (h : countSetting env name default = .ok count) : 1 ≤ count := by
  rcases setting_eq_ok_iff.mp h with ⟨-, rfl⟩ | ⟨t, -, hread⟩
  · exact hdefault
  · have hcount := mapError_eq_ok_iff.mp hread
    unfold parseCount at hcount
    split at hcount
    · cases hcount
    · split at hcount
      · cases hcount
      · obtain rfl := Except.ok.inj hcount
        omega

theorem plain_of_nonempty? (hplain : ∀ e ∈ env, e.2.any CodePoint.isSurrogate = false) {t : Text}
    (h : nonempty? env name = some t) : t.any CodePoint.isSurrogate = false := by
  obtain ⟨hvalue, -⟩ := Option.filter_eq_some_iff.mp h
  exact hplain _ (OrderedMap.mem_of_get?_eq_some hvalue)

/-! ### The environment -/

/-- The settings of a configuration are as a server needs them, its size aside. -/
structure IsSound (c : Config) : Prop where
  retained : 1 ≤ c.retainedUploads
  buffer : 1 ≤ c.telemetryBufferSize
  issuers : ∀ e ∈ c.secrets, e.1 ≠ [] ∧ e.1.IsTrimmed
  keys : ∀ e ∈ c.secrets, e.2 ≠ []
  origins : ∀ origin ∈ c.corsOrigins, origin ≠ [] ∧ origin.IsTrimmed
  ranges : ∀ range ∈ c.trustedRanges, range.IsCleared

/-- A start ends with a configuration that can be used, or is refused because of a setting. -/
def IsClosed (start : Except Failure Config) : Prop :=
  (∃ fault, start = .error (.config fault)) ∨ ∃ c, start = .ok c ∧ c.IsSound ∧ 0 ≤ c.maximumUploadSize

def sizeText? (env : Environment) : Option Text := nonempty? env "MAX_UPLOAD_SIZE"

def rangesOf (env : Environment) : Except Failure (List Network) :=
  setting env "TRUSTED_PROXY_RANGES" [] (reading fun t => parseTrustedRanges (items t))

def sizeOf (env : Environment) : Except Failure Int :=
  setting env "MAX_UPLOAD_SIZE" ({} : Config).maximumUploadSize Size.parse

/-- What is set behind the size. -/
def secretsOf (env : Environment) : Except Failure (OrderedMap Text Text) :=
  setting env "JWT_SECRETS" [] (reading parseIssuerSecrets)

/-- The size of an environment oversteps what can be used, and no other setting is refused
    before that shows. -/
inductive Oversteps (env : Environment) : Prop
  | infinite {t : Text} (given : sizeText? env = some t) (size : Size.IsInfinite t)
      (ranges : ∃ ranges, rangesOf env = .ok ranges)
  | negative {t : Text} (given : sizeText? env = some t) (size : Size.IsNegative t)
      (others : ∃ c, ofEnvironment env = .ok c)

/-- What a configuration is made of. -/
theorem ofEnvironment_eq_ok {c : Config} (h : ofEnvironment env = .ok c) :
    ∃ secrets, rangesOf env = .ok c.trustedRanges
      ∧ sizeOf env = .ok c.maximumUploadSize
      ∧ countSetting env "RETAINED_UPLOADS" ({} : Config).retainedUploads = .ok c.retainedUploads
      ∧ secretsOf env = .ok secrets ∧ registryOf secrets = .ok c.secrets
      ∧ countSetting env "TELEMETRY_BUFFER_SIZE" ({} : Config).telemetryBufferSize = .ok c.telemetryBufferSize
      ∧ c.corsOrigins = items ((value? env "CORS_ORIGINS").getD []) := by
  obtain ⟨ranges, hranges, h⟩ := bind_eq_ok_iff.mp h
  obtain ⟨size, hsize, h⟩ := bind_eq_ok_iff.mp h
  obtain ⟨retained, hretained, h⟩ := bind_eq_ok_iff.mp h
  obtain ⟨secrets, hsecrets, h⟩ := bind_eq_ok_iff.mp h
  obtain ⟨registry, hregistry, h⟩ := bind_eq_ok_iff.mp h
  obtain ⟨buffer, hbuffer, h⟩ := bind_eq_ok_iff.mp h
  obtain rfl := Except.ok.inj h
  exact ⟨secrets, hranges, hsize, hretained, hsecrets, hregistry, hbuffer, rfl⟩

/-- Why there is no configuration. -/
theorem ofEnvironment_eq_error {failure : Failure} (h : ofEnvironment env = .error failure) :
    (∃ fault, failure = .config fault)
      ∨ ((∃ ranges, rangesOf env = .ok ranges) ∧ sizeOf env = .error failure)
      ∨ ∃ secrets, secretsOf env = .ok secrets ∧ registryOf secrets = .error failure := by
  rcases bind_eq_error_iff.mp h with hranges | ⟨ranges, hranges, h⟩
  · exact Or.inl (fault_of_setting hranges)
  rcases bind_eq_error_iff.mp h with hsize | ⟨size, hsize, h⟩
  · exact Or.inr (Or.inl ⟨⟨ranges, hranges⟩, hsize⟩)
  rcases bind_eq_error_iff.mp h with hretained | ⟨retained, hretained, h⟩
  · exact Or.inl (fault_of_setting hretained)
  rcases bind_eq_error_iff.mp h with hsecrets | ⟨secrets, hsecrets, h⟩
  · exact Or.inl (fault_of_setting hsecrets)
  rcases bind_eq_error_iff.mp h with hregistry | ⟨registry, hregistry, h⟩
  · exact Or.inr (Or.inr ⟨secrets, hsecrets, hregistry⟩)
  rcases bind_eq_error_iff.mp h with hbuffer | ⟨buffer, hbuffer, h⟩
  · exact Or.inl (fault_of_setting hbuffer)
  · cases h

theorem spec_of_mem_secretsOf {secrets : OrderedMap Text Text} (h : secretsOf env = .ok secrets)
    (hplain : ∀ e ∈ env, e.2.any CodePoint.isSurrogate = false) {e : Text × Text} (he : e ∈ secrets) :
    e.1 ≠ [] ∧ e.1.IsTrimmed ∧ e.2 ≠ [] ∧ e.2.any CodePoint.isSurrogate = false := by
  rcases setting_eq_ok_iff.mp h with ⟨-, rfl⟩ | ⟨t, ht, hread⟩
  · cases he
  · obtain ⟨hissuer, htrimmed, hsecret, hmem⟩ :=
      spec_of_mem_parseIssuerSecrets (mapError_eq_ok_iff.mp hread) he
    refine ⟨hissuer, htrimmed, hsecret, ?_⟩
    rw [List.any_eq_false]
    intro c hc
    exact List.any_eq_false.mp (plain_of_nonempty? hplain ht) c (hmem c hc)

/-- **Every setting but the size is checked.** -/
theorem isSound_of_ofEnvironment {c : Config} (h : ofEnvironment env = .ok c)
    (hplain : ∀ e ∈ env, e.2.any CodePoint.isSurrogate = false) : c.IsSound := by
  obtain ⟨secrets, hranges, -, hretained, hsecrets, hregistry, hbuffer, horigins⟩ := ofEnvironment_eq_ok h
  refine ⟨one_le_of_countSetting (by decide) hretained, one_le_of_countSetting (by decide) hbuffer,
    ?_, ?_, ?_, ?_⟩
  · intro e he
    obtain ⟨secret, hsecret, -⟩ := spec_of_mem_registryOf hregistry he
    obtain ⟨hissuer, htrimmed, -⟩ := spec_of_mem_secretsOf hsecrets hplain hsecret
    exact ⟨hissuer, htrimmed⟩
  · intro e he
    obtain ⟨secret, hsecret, hkey⟩ := spec_of_mem_registryOf hregistry he
    obtain ⟨-, -, hne, -⟩ := spec_of_mem_secretsOf hsecrets hplain hsecret
    exact ne_nil_of_secretKey hkey hne
  · intro origin horigin
    rw [horigins] at horigin
    obtain ⟨hne, htrimmed, -⟩ := spec_of_mem_items horigin
    exact ⟨hne, htrimmed⟩
  · intro range hrange
    rcases setting_eq_ok_iff.mp hranges with ⟨-, hnone⟩ | ⟨t, -, hread⟩
    · rw [hnone] at hrange
      cases hrange
    · exact isCleared_of_parseTrustedRanges (mapError_eq_ok_iff.mp hread) hrange

theorem sizeOf_eq_error {failure : Failure} (h : sizeOf env = .error failure) :
    (∃ fault, failure = .config fault)
      ∨ failure = .value .outOfRange ∧ ∃ t, sizeText? env = some t ∧ Size.IsInfinite t := by
  obtain ⟨t, ht, hfailed⟩ := setting_eq_error_iff.mp h
  rcases Size.parse_cases t with ⟨-, fault, hparse⟩ | ⟨hinfinite, hparse⟩ | ⟨-, n, hparse, -⟩
  · exact Or.inl ⟨fault, Except.error.inj (hfailed.symm.trans hparse)⟩
  · exact Or.inr ⟨Except.error.inj (hfailed.symm.trans hparse), t, ht, hinfinite⟩
  · cases hfailed.symm.trans hparse

theorem sizeOf_neg_iff {size : Int} (h : sizeOf env = .ok size) :
    size < 0 ↔ ∃ t, sizeText? env = some t ∧ Size.IsNegative t := by
  rcases setting_eq_ok_iff.mp h with ⟨hnone, rfl⟩ | ⟨t, ht, hread⟩
  · apply iff_of_false
    · decide
    · rintro ⟨t, ht, -⟩
      cases hnone.symm.trans ht
  · rcases Size.parse_cases t with ⟨-, fault, hparse⟩ | ⟨-, hparse⟩ | ⟨-, n, hparse, hneg⟩
    · cases hread.symm.trans hparse
    · cases hread.symm.trans hparse
    · obtain rfl := Except.ok.inj (hread.symm.trans hparse)
      rw [hneg]
      constructor
      · intro hnegative
        exact ⟨t, ht, hnegative⟩
      · rintro ⟨t', ht', hnegative⟩
        obtain rfl := Option.some.inj (ht.symm.trans ht')
        exact hnegative

theorem ofEnvironment_of_infinite {t : Text} {ranges : List Network} (ht : sizeText? env = some t)
    (hinfinite : Size.IsInfinite t) (hranges : rangesOf env = .ok ranges) :
    ofEnvironment env = .error (.value .outOfRange) := by
  have hsize : sizeOf env = .error (.value .outOfRange) := by
    apply setting_eq_error_iff.mpr
    rcases Size.parse_cases t with ⟨hfinite, -⟩ | ⟨-, hparse⟩ | ⟨hfinite, -⟩
    · exact absurd hinfinite hfinite
    · exact ⟨t, ht, hparse⟩
    · exact absurd hinfinite hfinite
  apply bind_eq_error_iff.mpr
  refine Or.inr ⟨ranges, hranges, ?_⟩
  exact bind_eq_error_iff.mpr (Or.inl hsize)

/-- **A start is closed unless its size oversteps.**  An environment of texts without
    surrogates ends in a configuration that can be used or is refused because of a setting,
    just when its size is not one of two: an infinite one, with which the start fails for
    another reason once the ranges are read, and one of minus one octet or less, which is
    taken.  In this case too every other setting is as it should be. -/
theorem startup_closed_iff (env : Environment) (hplain : ∀ e ∈ env, e.2.any CodePoint.isSurrogate = false) :
    (IsClosed (ofEnvironment env) ↔ ¬ Oversteps env)
      ∧ (Oversteps env → ofEnvironment env = .error (.value .outOfRange)
        ∨ ∃ c, ofEnvironment env = .ok c ∧ c.IsSound ∧ c.maximumUploadSize < 0) := by
  have hoversteps : Oversteps env → ofEnvironment env = .error (.value .outOfRange)
      ∨ ∃ c, ofEnvironment env = .ok c ∧ c.IsSound ∧ c.maximumUploadSize < 0 := by
    intro h
    cases h with
    | infinite ht hinfinite hranges =>
      obtain ⟨ranges, hranges⟩ := hranges
      exact Or.inl (ofEnvironment_of_infinite ht hinfinite hranges)
    | negative ht hnegative hothers =>
      obtain ⟨c, hc⟩ := hothers
      obtain ⟨-, -, hsize, -⟩ := ofEnvironment_eq_ok hc
      have hneg := (sizeOf_neg_iff hsize).mpr ⟨_, ht, hnegative⟩
      exact Or.inr ⟨c, hc, isSound_of_ofEnvironment hc hplain, hneg⟩
  refine ⟨⟨?_, ?_⟩, hoversteps⟩
  · rintro hclosed hover
    rcases hoversteps hover with hfailed | ⟨c, hc, -, hneg⟩
    · rcases hclosed with ⟨fault, hfault⟩ | ⟨c, hc, -⟩
      · cases hfailed.symm.trans hfault
      · cases hfailed.symm.trans hc
    · rcases hclosed with ⟨fault, hfault⟩ | ⟨c', hc', -, hnonneg⟩
      · cases hc.symm.trans hfault
      · obtain rfl := Except.ok.inj (hc.symm.trans hc')
        omega
  · intro hwithin
    cases hstart : ofEnvironment env with
    | ok c =>
      refine Or.inr ⟨c, rfl, isSound_of_ofEnvironment hstart hplain, ?_⟩
      obtain ⟨-, -, hsize, -⟩ := ofEnvironment_eq_ok hstart
      by_contra hneg
      obtain ⟨t, ht, hnegative⟩ := (sizeOf_neg_iff hsize).mp (by omega)
      exact hwithin (.negative ht hnegative ⟨c, hstart⟩)
    | error failure =>
      rcases ofEnvironment_eq_error hstart with ⟨fault, rfl⟩ | ⟨hranges, hsize⟩ | ⟨secrets, hsecrets, hregistry⟩
      · exact Or.inl ⟨fault, rfl⟩
      · rcases sizeOf_eq_error hsize with ⟨fault, rfl⟩ | ⟨-, t, ht, hinfinite⟩
        · exact Or.inl ⟨fault, rfl⟩
        · exact absurd (.infinite ht hinfinite hranges) hwithin
      · obtain ⟨registry, hread⟩ := exists_registryOf fun e he =>
          (spec_of_mem_secretsOf hsecrets hplain he).2.2.2
        cases hregistry.symm.trans hread

def fullEnvironment : Environment :=
  [(Text.of "FILEUPLOADER_MAX_UPLOAD_SIZE", Text.of " 10MB"),
    (Text.of "FILEUPLOADER_JWT_SECRETS", Text.of "kiwi = s3cret, other=a=b"),
    (Text.of "FILEUPLOADER_TRUSTED_PROXY_RANGES", Text.of "10.0.0.1/8,, ::1")]

theorem startup_closed_iff_full :
    (∀ e ∈ fullEnvironment, e.2.any CodePoint.isSurrogate = false)
      ∧ ¬ Oversteps fullEnvironment ∧ IsClosed (ofEnvironment fullEnvironment) := by
  have hplain : ∀ e ∈ fullEnvironment, e.2.any CodePoint.isSurrogate = false := by decide +kernel
  have hgiven : sizeText? fullEnvironment = some (Text.of " 10MB") := by decide +kernel
  have hamount : Size.amount? (Text.of " 10MB") = some (.finite false 5629499534213120 (-29)) := by
    decide +kernel
  have hwithin : ¬ Oversteps fullEnvironment := by
    intro hover
    cases hover with
    | infinite ht hinfinite hranges =>
      obtain rfl := Option.some.inj (hgiven.symm.trans ht)
      obtain ⟨negative, hsize⟩ := hinfinite
      cases hamount.symm.trans hsize
    | negative ht hnegative hothers =>
      obtain rfl := Option.some.inj (hgiven.symm.trans ht)
      obtain ⟨x, q, hx, hq⟩ := hnegative
      obtain rfl := Option.some.inj (hamount.symm.trans hx)
      have hsize : (Binary64.finite false 5629499534213120 (-29)).truncate? = some 10485760 := by
        decide +kernel
      exact absurd ((Binary64.truncate?_neg_iff hsize).mpr ⟨q, hq⟩) (by decide)
  exact ⟨hplain, hwithin, (startup_closed_iff fullEnvironment hplain).1.mpr hwithin⟩

def sizeEnvironment (size : String) : Environment :=
  [(Text.of "FILEUPLOADER_MAX_UPLOAD_SIZE", Text.of size)]

/-- **A start may be open**: an infinite size is no fault of the configuration, and a negative
    one is taken. -/
theorem exists_start_not_closed :
    (∀ e ∈ sizeEnvironment "inf", e.2.any CodePoint.isSurrogate = false)
      ∧ ¬ IsClosed (ofEnvironment (sizeEnvironment "inf"))
      ∧ (∀ e ∈ sizeEnvironment "-1", e.2.any CodePoint.isSurrogate = false)
      ∧ ¬ IsClosed (ofEnvironment (sizeEnvironment "-1")) := by
  have hinfinite : ofEnvironment (sizeEnvironment "inf") = .error (.value .outOfRange) := by decide +kernel
  have hnegative : (ofEnvironment (sizeEnvironment "-1")).map (·.maximumUploadSize) = .ok (-1) := by
    decide +kernel
  obtain ⟨c, hc, hsize⟩ := map_eq_ok_iff.mp hnegative
  refine ⟨by decide +kernel, ?_, by decide +kernel, ?_⟩
  · rintro (⟨fault, hfault⟩ | ⟨c, hok, -⟩)
    · cases hinfinite.symm.trans hfault
    · cases hinfinite.symm.trans hok
  · rintro (⟨fault, hfault⟩ | ⟨c', hok, -, hnonneg⟩)
    · cases hc.symm.trans hfault
    · obtain rfl := Except.ok.inj (hc.symm.trans hok)
      omega

end Config

end UploadGate
