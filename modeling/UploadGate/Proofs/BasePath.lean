/-
  UploadGate/Proofs/BasePath.lean
  ===============================
  **Routes begin at the path of the base path, given alone or in a URL.**

  Whatever path a base path has, a slash is put in front of it if there is none and
  the slashes at its end are dropped, so that routes can be put behind what is left
  (`isRoutePrefix_trimmed`).  A plain path is the path both of itself and of a URL
  that it is the end of (`parse_of_isPlainPath`, `parse_url`).
-/
import Mathlib.Data.List.DropRight
import UploadGate.BasePath
import UploadGate.Proofs.Outcome
import UploadGate.Proofs.Text.Cutting

namespace UploadGate

namespace BasePath

/-- Routes can be put behind a text: it is empty, or it has a slash in front and none at its end. -/
def IsRoutePrefix (t : Text) : Prop := t = [] ∨ t.head? = some slash ∧ t.getLast? ≠ some slash

/-- A path with one slash in front and without the marks of other parts of a URL.  It has no
    blanks or control characters either, of which those above the space would do no harm. -/
structure IsPlainPath (p : Text) : Prop where
  first : p.head? = some slash
  second : p.tail.head? ≠ some slash
  visible : ∀ c ∈ p, 0x20 < c.val
  unmarked : ∀ c ∈ p, c ≠ .ofChar '?' ∧ c ≠ .ofChar '#' ∧ c ≠ .ofChar ';'

def IsHostPoint (c : CodePoint) : Prop :=
  c.isAsciiLetter = true ∨ c.isAsciiDigit = true ∨ c = .ofChar '.' ∨ c = .ofChar '-'

/-! ### Slashes at the end -/

theorem trimmed_eq_rdropWhile (path : Text) :
    trimmed path = (if path.head? = some slash then path else slash :: path).rdropWhile (· = slash) := rfl

theorem getLast?_rdropWhile_ne (t : Text) : (t.rdropWhile (· = slash)).getLast? ≠ some slash := by
  intro hlast
  have hne : t.rdropWhile (· = slash) ≠ [] := by
    intro hnil
    rw [hnil] at hlast
    cases hlast
  rw [List.getLast?_eq_some_getLast hne, Option.some_inj] at hlast
  exact List.rdropWhile_last_not _ t hne (decide_eq_true hlast)

/-- **Routes can be put behind what is left of any path.** -/
theorem isRoutePrefix_trimmed (path : Text) : IsRoutePrefix (trimmed path) := by
  rw [trimmed_eq_rdropWhile]
  generalize hrooted : (if path.head? = some slash then path else slash :: path) = rooted
  have hhead : rooted.head? = some slash := by
    rw [← hrooted]
    split
    · assumption
    · rfl
  by_cases hnil : rooted.rdropWhile (· = slash) = []
  · exact Or.inl hnil
  · refine Or.inr ⟨?_, getLast?_rdropWhile_ne rooted⟩
    obtain ⟨dropped, hdropped⟩ := List.rdropWhile_prefix (· = slash) rooted
    rw [← hdropped, List.head?_append_of_ne_nil _ hnil] at hhead
    exact hhead

theorem exists_eq_trimmed_append {p : Text} (h : p.head? = some slash) :
    ∃ n, p = trimmed p ++ List.replicate n slash := by
  have htrimmed : trimmed p = p.rdropWhile (· = slash) := by
    rw [trimmed_eq_rdropWhile, if_pos h]
  refine ⟨(p.rtakeWhile (· = slash)).length, ?_⟩
  have hslashes : p.rtakeWhile (· = slash) = List.replicate (p.rtakeWhile (· = slash)).length slash := by
    apply List.eq_replicate_of_mem
    intro c hc
    have hslash := List.mem_rtakeWhile_imp hc
    exact of_decide_eq_true hslash
  rw [htrimmed, ← hslashes, List.rdropWhile_append_rtakeWhile]

end BasePath

/-! ### The parts of a URL -/

namespace Url

open BasePath

variable {p : Text}

theorem cleaned_eq_self {t : Text} (h : ∀ c ∈ t, 0x20 < c.val) : cleaned t = t := by
  have hfront : t.dropWhile (fun c => c.val ≤ 0x20) = t := by
    cases t with
    | nil => rfl
    | cons c t =>
      apply List.dropWhile_cons_of_neg
      simpa using h c List.mem_cons_self
  rw [cleaned, hfront, List.filter_eq_self]
  intro c hc
  have hvisible := h c hc
  simp only [Bool.and_eq_true, decide_eq_true_eq]
  omega

theorem before_eq_self {mark : CodePoint} {t : Text} (h : mark ∉ t) : before mark t = t := by
  unfold before
  rw [List.takeWhile_eq_self_iff]
  intro c hc
  exact decide_eq_true fun heq => h (heq ▸ hc)

theorem dropParameters_eq_self (h : CodePoint.ofChar ';' ∉ p) : dropParameters p = p := by
  unfold dropParameters
  split
  · rename_i front segment hcut
    obtain ⟨rfl, -⟩ := Text.cutLast?_eq_some_iff.mp hcut
    rw [List.mem_append, List.mem_cons, not_or, not_or] at h
    rw [before_eq_self h.2.2]
  · exact before_eq_self h

/-- A plain path begins with a slash that no other follows. -/
theorem exists_eq_cons (h : IsPlainPath p) : ∃ rest : Text, p = slash :: rest ∧ rest.head? ≠ some slash := by
  cases p with
  | nil => cases h.first
  | cons c rest => exact ⟨rest, by rw [Option.some_inj.mp h.first], h.second⟩

theorem cutScheme_path (h : IsPlainPath p) : cutScheme p = ([], p) := by
  obtain ⟨rest, rfl, -⟩ := exists_eq_cons h
  have hcolon : slash ≠ .ofChar ':' := by decide
  have hletter : slash.isAsciiLetter = false := by decide
  unfold cutScheme
  rw [Text.cut?, if_neg hcolon]
  cases Text.cut? (.ofChar ':') rest with
  | none => rfl
  | some cut => simp only [Option.map_some, hletter, Bool.false_and, Bool.false_eq_true, if_false]

theorem cutAuthority_path (h : IsPlainPath p) : cutAuthority p = ([], p) := by
  obtain ⟨rest, rfl, hsecond⟩ := exists_eq_cons h
  have hnone : Text.dropFront? (Text.of "//") (slash :: rest) = none := by
    have hslashes : Text.of "//" = [slash, slash] := rfl
    rw [hslashes, Text.dropFront?, if_pos rfl]
    cases rest with
    | nil => rfl
    | cons d rest =>
      rw [Text.dropFront?, if_neg]
      intro heq
      exact hsecond (congrArg some heq.symm)
  unfold cutAuthority
  rw [hnone]

/-- A plain path has neither a query nor a fragment behind it. -/
theorem before_marks_eq_self (h : IsPlainPath p) : before (.ofChar '?') (before (.ofChar '#') p) = p := by
  rw [before_eq_self fun hmem => (h.unmarked _ hmem).2.1 rfl,
    before_eq_self fun hmem => (h.unmarked _ hmem).1 rfl]

theorem withoutParameters_eq_self (h : IsPlainPath p) (scheme authority : Text) :
    withoutParameters ⟨scheme, authority, p⟩ = ⟨scheme, authority, p⟩ := by
  unfold withoutParameters
  simp only [dropParameters_eq_self fun hmem => (h.unmarked _ hmem).2.2 rfl, ite_self]

theorem split_of_isPlainPath (h : IsPlainPath p) : split p = .ok ⟨[], [], p⟩ := by
  have hgood : isGoodAuthority [] = true := by decide
  unfold split
  rw [cleaned_eq_self h.visible, cutScheme_path h]
  simp only [cutAuthority_path h, hgood, Bool.not_true, Bool.false_eq_true, if_false, before_marks_eq_self h]

theorem parse_of_isPlainPath (h : IsPlainPath p) : parse p = .ok ⟨[], [], p⟩ := by
  rw [parse, split_of_isPlainPath h, Except.map, withoutParameters_eq_self h]

/-- The code points of the names of hosts are in ASCII, and none is a mark of a URL. -/
theorem of_isHostPoint {c : CodePoint} (h : IsHostPoint c) :
    0x20 < c.val ∧ c.val < 0x80 ∧ endsAuthority c = false ∧ c ≠ .ofChar '[' ∧ c ≠ .ofChar ']' := by
  have hall : ∀ n : Fin 0x80, IsHostPoint (n.castLE (by decide)) →
      endsAuthority (n.castLE (by decide)) = false ∧ n.castLE (by decide) ≠ CodePoint.ofChar '['
        ∧ n.castLE (by decide) ≠ CodePoint.ofChar ']' := by
    unfold IsHostPoint
    decide
  have hrange : 0x20 < c.val ∧ c.val < 0x80 := by
    rcases h with hletter | hdigit | rfl | rfl
    · simp only [CodePoint.isAsciiLetter, Bool.or_eq_true, Bool.and_eq_true, decide_eq_true_eq] at hletter
      omega
    · simp only [CodePoint.isAsciiDigit, Bool.and_eq_true, decide_eq_true_eq] at hdigit
      omega
    · decide
    · decide
  exact ⟨hrange.1, hrange.2, hall ⟨c.val, hrange.2⟩ h⟩

theorem isGoodAuthority_host {host : Text} (h : ∀ c ∈ host, IsHostPoint c) : isGoodAuthority host = true := by
  have hopen : host.contains (.ofChar '[') = false := by
    rw [← Bool.not_eq_true, List.contains_iff_mem]
    exact fun hmem => (of_isHostPoint (h _ hmem)).2.2.2.1 rfl
  have hclose : host.contains (.ofChar ']') = false := by
    rw [← Bool.not_eq_true, List.contains_iff_mem]
    exact fun hmem => (of_isHostPoint (h _ hmem)).2.2.2.2 rfl
  have hplain : (host.any fun c => delimiterLookalikes.contains c.val) = false := by
    rw [List.any_eq_false]
    intro c hc hmem
    have hlow : ∀ n ∈ delimiterLookalikes, 0x80 ≤ n := by decide
    have hascii := (of_isHostPoint (h c hc)).2.1
    have hbeyond := hlow c.val (List.contains_iff_mem.mp hmem)
    omega
  unfold isGoodAuthority hasGoodBrackets
  rw [hopen, hclose, hplain]
  rfl

theorem cutAuthority_host {host : Text} (h : ∀ c ∈ host, IsHostPoint c) (hp : IsPlainPath p) :
    cutAuthority (Text.of "//" ++ (host ++ p)) = (host, p) := by
  obtain ⟨rest, rfl, -⟩ := exists_eq_cons hp
  have hfront : Text.dropFront? (Text.of "//") (Text.of "//" ++ (host ++ slash :: rest))
      = some (host ++ slash :: rest) := rfl
  have hinside : ∀ c ∈ host, (!endsAuthority c) = true := by
    intro c hc
    rw [(of_isHostPoint (h c hc)).2.2.1]
    rfl
  have hend : endsAuthority slash = true := by decide
  unfold cutAuthority
  rw [hfront]
  simp only [List.takeWhile_append_of_pos hinside, List.dropWhile_append_of_pos hinside, List.takeWhile_cons,
    List.dropWhile_cons, hend, Bool.not_true, Bool.false_eq_true, if_false, List.append_nil]

theorem split_url {scheme host : Text} (hscheme : scheme = Text.of "http" ∨ scheme = Text.of "https")
    (hhost : ∀ c ∈ host, IsHostPoint c) (hp : IsPlainPath p) :
    split (scheme ++ Text.of "://" ++ host ++ p) = .ok ⟨scheme, host, p⟩ := by
  have hvisible : ∀ c ∈ scheme ++ Text.of "://" ++ host ++ p, 0x20 < c.val := by
    have hfront : (scheme ++ Text.of "://").all (0x20 < ·.val) = true := by
      rcases hscheme with rfl | rfl
      · decide
      · decide
    intro c hc
    rcases List.mem_append.mp hc with hc | hc
    · rcases List.mem_append.mp hc with hc | hc
      · exact of_decide_eq_true (List.all_eq_true.mp hfront c hc)
      · exact (of_isHostPoint (hhost c hc)).1
    · exact hp.visible c hc
  have hcut : cutScheme (scheme ++ Text.of "://" ++ host ++ p) = (scheme, Text.of "//" ++ (host ++ p)) := by
    rcases hscheme with rfl | rfl
    · rfl
    · rfl
  unfold split
  rw [cleaned_eq_self hvisible, hcut]
  simp only [cutAuthority_host hhost hp, isGoodAuthority_host hhost, Bool.not_true, Bool.false_eq_true, if_false,
    before_marks_eq_self hp]

theorem parse_url {scheme host : Text} (hscheme : scheme = Text.of "http" ∨ scheme = Text.of "https")
    (hhost : ∀ c ∈ host, IsHostPoint c) (hp : IsPlainPath p) :
    parse (scheme ++ Text.of "://" ++ host ++ p) = .ok ⟨scheme, host, p⟩ := by
  rw [parse, split_url hscheme hhost hp, Except.map, withoutParameters_eq_self hp]

end Url

/-- **The prefix of a path is the prefix of every URL with this path.**  Routes can be put behind
    the prefix of any base path that is read.  The prefix of a plain path, and of every URL of a
    host that ends with it, is the path without the slashes at its end. -/
theorem BasePath.prefix_of_path_and_url :
    (∀ basePath url, Url.parse basePath = .ok url →
      ∃ front, routePrefix basePath = .ok front ∧ IsRoutePrefix front)
    ∧ ∀ p, IsPlainPath p → ∃ front n, p = front ++ List.replicate n slash ∧ front.getLast? ≠ some slash
      ∧ routePrefix p = .ok front
      ∧ ∀ scheme host, scheme = Text.of "http" ∨ scheme = Text.of "https" → (∀ c ∈ host, IsHostPoint c) →
        routePrefix (scheme ++ Text.of "://" ++ host ++ p) = .ok front := by
  constructor
  · intro basePath url hparse
    refine ⟨trimmed url.path, ?_, isRoutePrefix_trimmed url.path⟩
    exact map_eq_ok_iff.mpr ⟨url, hparse, rfl⟩
  · intro p hp
    obtain ⟨n, hn⟩ := exists_eq_trimmed_append hp.first
    refine ⟨trimmed p, n, hn, getLast?_rdropWhile_ne _, ?_, ?_⟩
    · exact map_eq_ok_iff.mpr ⟨_, Url.parse_of_isPlainPath hp, rfl⟩
    · intro scheme host hscheme hhost
      exact map_eq_ok_iff.mpr ⟨_, Url.parse_url hscheme hhost hp, rfl⟩

theorem BasePath.prefix_of_path_and_url_files :
    ∃ front n, IsPlainPath (Text.of "/files/") ∧ routePrefix (Text.of "/files/") = .ok front
      ∧ IsRoutePrefix front ∧ Text.of "/files/" = front ++ List.replicate n slash
      ∧ routePrefix (Text.of "http" ++ Text.of "://" ++ Text.of "host" ++ Text.of "/files/") = .ok front := by
  have hpath : (Text.of "/files/").all (fun c => 0x20 < c.val && c != .ofChar '?' && c != .ofChar '#'
      && c != .ofChar ';') = true := by decide
  have hhost : (Text.of "host").all CodePoint.isAsciiLetter = true := by decide
  simp only [List.all_eq_true, Bool.and_eq_true, decide_eq_true_eq, bne_iff_ne, and_assoc] at hpath hhost
  have hplain : IsPlainPath (Text.of "/files/") :=
    ⟨by decide, by decide, fun c hc => (hpath c hc).1, fun c hc => (hpath c hc).2⟩
  obtain ⟨front, n, heq, -, hfront, hurl⟩ := prefix_of_path_and_url.2 _ hplain
  obtain ⟨front', hfront', hroutes⟩ := prefix_of_path_and_url.1 _ _ (Url.parse_of_isPlainPath hplain)
  obtain rfl : front' = front := Except.ok.inj (hfront'.symm.trans hfront)
  exact ⟨front', n, hplain, hfront, hroutes, heq, hurl _ _ (Or.inl rfl) fun c hc => Or.inl (hhost c hc)⟩

end UploadGate
