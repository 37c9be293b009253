import Rcurl.Foundation.DomainName
import Rcurl.Http.Proxy

/-!
# Which hosts go around the proxy

An entry of `NO_PROXY` names a host, or behind a dot a domain and every host under it. The code compares
characters: its test on the end of a host is one on whole labels, but it tells letter case apart, and a
single dot is taken for a domain that every host with a final dot ends in. `bypass_right_iff` says when
neither matters.
-/

namespace Rcurl

open ShellWords (Text)
open DomainName (labels Under)

/-- The entries of `NO_PROXY`, or of `no_proxy`, without the blank ones. -/
def noProxyEntries (vars : Vars) : List Text :=
  match firstVar vars ["NO_PROXY".toList, "no_proxy".toList] with
  | some noProxy => ((noProxy.splitOn ',').map RustText.trim).filter (· ≠ [])
  | none => []

/-- A name without the case of its ASCII letters. -/
def foldCase (name : Text) : Text := name.map Char.toLower

/-- An entry covers a host when it is the host, or a dot and a domain that the host is or lies under.
Names are compared as `fold` gives them. -/
def Covers (fold : Text → Text) (host entry : Text) : Prop :=
  fold entry = fold host ∨ ∃ domain, entry = '.' :: domain ∧ domain ≠ [] ∧
    (labels '.' (fold host) = labels '.' (fold domain) ∨ Under '.' (fold domain) (fold host))

/-- Some entry covers a host. -/
def Covered (fold : Text → Text) (vars : Vars) (host : Text) : Prop :=
  ∃ entry ∈ noProxyEntries vars, Covers fold host entry

/-- An entry covers a host in another letter case only. -/
def CaseOnly (host entry : Text) : Prop := Covers foldCase host entry ∧ ¬ Covers id host entry

/-- An entry that is a dot, for a host that is empty or ends in a dot. -/
def DotEntry (vars : Vars) (host : Text) : Prop :=
  ['.'] ∈ noProxyEntries vars ∧ (host = [] ∨ ['.'] <:+ host)

/-- A host goes around the proxy exactly when an entry covers it, whatever the letter case; and other
entries, or another order of them, never take that back. -/
structure BypassRight (vars : Vars) (host : Text) : Prop where
  /-- The entries that cover the host decide. -/
  covered : shouldBypassProxy vars (some host) = true ↔ Covered foldCase vars host
  /-- More entries in any order bypass as well. -/
  grows : ∀ others : Vars, noProxyEntries vars ⊆ noProxyEntries others →
    shouldBypassProxy vars (some host) = true → shouldBypassProxy others (some host) = true

section Bypass

variable {vars : Vars} {host entry : Text}

/-- Only an entry that matches lets a host around the proxy. -/
theorem shouldBypassProxy_iff : shouldBypassProxy vars (some host) = true ↔
    ∃ entry ∈ noProxyEntries vars, bypassPattern host entry = true := by
  unfold shouldBypassProxy noProxyEntries
  cases firstVar vars ["NO_PROXY".toList, "no_proxy".toList] with
  | none => simp
  | some noProxy =>
    have whole : ∀ text : Text, (RustText.trim text != [] && bypassPattern host (RustText.trim text)) =
        true ↔ RustText.trim text ≠ [] ∧ bypassPattern host (RustText.trim text) = true := by
      intro text
      rw [Bool.and_eq_true, bne_iff_ne]
    dsimp only
    rw [List.any_eq_true]
    constructor
    · rintro ⟨text, listed, matched⟩
      obtain ⟨solid, matched⟩ := (whole text).mp matched
      refine ⟨RustText.trim text, List.mem_filter.mpr ⟨?_, decide_eq_true solid⟩, matched⟩
      exact List.mem_map_of_mem listed
    · rintro ⟨entry, member, matched⟩
      obtain ⟨listed, solid⟩ := List.mem_filter.mp member
      obtain ⟨text, parted, rfl⟩ := List.mem_map.mp listed
      exact ⟨text, parted, (whole text).mpr ⟨of_decide_eq_true solid, matched⟩⟩

/-- An entry that starts with a dot matches a domain and the hosts under it. -/
theorem bypassPattern_dot {domain : Text} : bypassPattern host ('.' :: domain) = true ↔
    host = domain ∨ Under '.' domain host := by
  have start : ('.' :: domain).head? = some '.' := rfl
  rw [bypassPattern, if_pos start, Bool.or_eq_true, List.isSuffixOf_iff_suffix, beq_iff_eq,
    List.tail_cons, DomainName.suffix_iff_under]
  exact or_comm

/-- An entry that does not start with a dot matches itself. -/
theorem bypassPattern_host (plain : entry.head? ≠ some '.') :
    bypassPattern host entry = true ↔ host = entry := by
  rw [bypassPattern, if_neg plain, beq_iff_eq]

/-- An entry with a domain covers the domain and the hosts under it. -/
theorem covers_dot {domain : Text} (solid : domain ≠ []) :
    Covers id host ('.' :: domain) ↔ host = domain ∨ Under '.' domain host := by
  constructor
  · rintro (same | ⟨other, same, _, covered⟩)
    · exact .inr (DomainName.suffix_iff_under.mp ⟨[], same⟩)
    · rw [List.cons.injEq] at same
      rw [same.2]
      exact covered.imp DomainName.labels_inj.mp id
  · intro covered
    exact .inr ⟨domain, rfl, solid, covered.imp DomainName.labels_inj.mpr id⟩

/-- An entry matches exactly when it covers the host letter for letter, or is a dot and the host is
empty or ends in one. -/
theorem bypassPattern_iff : bypassPattern host entry = true ↔
    Covers id host entry ∨ entry = ['.'] ∧ (host = [] ∨ ['.'] <:+ host) := by
  by_cases dotted : entry.head? = some '.'
  · obtain ⟨domain, rfl⟩ := List.head?_eq_some_iff.mp dotted
    by_cases bare : domain = []
    · rw [bare, bypassPattern_dot, ← DomainName.suffix_iff_under]
      constructor
      · exact fun matched => .inr ⟨rfl, matched⟩
      · rintro ((same | ⟨domain, same, solid, _⟩) | ⟨_, matched⟩)
        · exact .inr ⟨[], same⟩
        · rw [List.cons.injEq] at same
          exact absurd same.2.symm solid
        · exact matched
    · rw [bypassPattern_dot, ← covers_dot bare]
      constructor
      · exact Or.inl
      · rintro (covers | ⟨same, _⟩)
        · exact covers
        · rw [List.cons.injEq] at same
          exact absurd same.2 bare
  · rw [bypassPattern_host dotted]
    constructor
    · exact fun same => .inl (.inl same.symm)
    · rintro ((same | ⟨domain, same, _⟩) | ⟨same, _⟩)
      · exact same.symm
      · exact absurd (congrArg List.head? same) dotted
      · exact absurd (congrArg List.head? same) dotted

/-- What the code lets around the proxy. -/
theorem shouldBypassProxy_covered : shouldBypassProxy vars (some host) = true ↔
    Covered id vars host ∨ DotEntry vars host := by
  rw [shouldBypassProxy_iff]
  simp only [bypassPattern_iff]
  constructor
  · rintro ⟨entry, member, covers | ⟨rfl, ends⟩⟩
    · exact .inl ⟨entry, member, covers⟩
    · exact .inr ⟨member, ends⟩
  · rintro (⟨entry, member, covers⟩ | ⟨member, ends⟩)
    · exact ⟨entry, member, .inl covers⟩
    · exact ⟨['.'], member, .inr ⟨rfl, ends⟩⟩

/-- What covers a host letter for letter covers it whatever the letter case. -/
theorem Covers.fold (covers : Covers id host entry) : Covers foldCase host entry := by
  rcases covers with same | ⟨domain, rfl, solid, same | under⟩
  · exact .inl (congrArg foldCase same)
  · have equal : host = domain := DomainName.labels_inj.mp same
    exact .inr ⟨domain, rfl, solid, .inl (congrArg (fun name => labels '.' (foldCase name)) equal)⟩
  · have ends := (DomainName.suffix_iff_under.mpr under).map Char.toLower
    have folded : '.' :: foldCase domain <:+ foldCase host := ends
    exact .inr ⟨domain, rfl, solid, .inr (DomainName.suffix_iff_under.mp folded)⟩

/-- More entries never take a host back. -/
theorem shouldBypassProxy_mono {others : Vars} (more : noProxyEntries vars ⊆ noProxyEntries others)
    (bypassed : shouldBypassProxy vars (some host) = true) :
    shouldBypassProxy others (some host) = true := by
  obtain ⟨entry, member, matched⟩ := shouldBypassProxy_iff.mp bypassed
  exact shouldBypassProxy_iff.mpr ⟨entry, more member, matched⟩

end Bypass

/-- The hosts around the proxy are those that an entry covers, whatever the letter case, exactly when an
entry covers the host letter for letter, or else none covers it in another letter case and no lone dot
matches it, or both happen. More entries never take a host back. -/
theorem bypass_right_iff (vars : Vars) (host : Text) : BypassRight vars host ↔
    (∃ entry ∈ noProxyEntries vars, Covers id host entry) ∨
      ((∃ entry ∈ noProxyEntries vars, CaseOnly host entry) ↔ DotEntry vars host) := by
  by_cases spelled : ∃ entry ∈ noProxyEntries vars, Covers id host entry
  · obtain ⟨entry, member, covers⟩ := spelled
    refine iff_of_true ⟨?_, fun others more => shouldBypassProxy_mono more⟩ (.inl ⟨entry, member, covers⟩)
    rw [shouldBypassProxy_covered]
    exact iff_of_true (.inl ⟨entry, member, covers⟩) ⟨entry, member, covers.fold⟩
  · have folded : Covered foldCase vars host ↔ ∃ entry ∈ noProxyEntries vars, CaseOnly host entry := by
      constructor
      · rintro ⟨entry, member, covers⟩
        exact ⟨entry, member, covers, fun exact => spelled ⟨entry, member, exact⟩⟩
      · rintro ⟨entry, member, covers, _⟩
        exact ⟨entry, member, covers⟩
    have bypassed : shouldBypassProxy vars (some host) = true ↔ DotEntry vars host := by
      rw [shouldBypassProxy_covered]
      exact or_iff_right spelled
    constructor
    · rintro ⟨covered, _⟩
      rw [bypassed, folded] at covered
      exact .inr covered.symm
    · intro condition
      refine ⟨?_, fun others more => shouldBypassProxy_mono more⟩
      rw [bypassed, folded]
      exact (condition.resolve_left spelled).symm

/-! ## A name in capitals -/

/-- `NO_PROXY` with one value. -/
def noProxyVariable (value : Text) : Vars := fun name =>
  if name = "NO_PROXY".toList then some value else none

/-- An entry in another letter case covers a host that it does not let around the proxy. -/
theorem capitals_not_bypassed : ¬ ∀ (vars : Vars) (host : Text), BypassRight vars host := by
  intro right
  have covered : Covered foldCase (noProxyVariable "Example.com".toList) "example.com".toList :=
    ⟨"Example.com".toList, by decide, .inl (by decide)⟩
  have bypassed := (right _ _).covered.mpr covered
  exact absurd bypassed (by decide)

end Rcurl
