import Linewise.Proofs.Passes

/-!
# Scanners that can be trusted

A retokenizer is *trusted* if every scanner that it uses, or can be told to use, keeps the contract of
scanners. No operation brings in a scanner from elsewhere (`trusted_setLanguage`, and
`Trusted.of_sameLanguage` for all that keep the language), and the built-in scanners keep the contract
(`lawful_builtin`).
-/

namespace Linewise.Retokenizer

/-- Every scanner that is in use, or can be, keeps the contract of scanners. -/
structure Trusted (r : Retokenizer) : Prop where
  scanner : r.scanner.Lawful
  registry : ∀ entry ∈ r.registry.entries, entry.2.Lawful

section Trusted
variable {r r' : Retokenizer}

theorem Trusted.of_sameLanguage (h : r.Trusted) (hs : r.SameLanguage r') : r'.Trusted where
  scanner := hs.scanner_eq ▸ h.scanner
  registry := hs.registry_eq ▸ h.registry

theorem exists_entry_of_get {registry : Registry} {id : String} {scanner : Scanner}
    (hget : registry.get id = .ok scanner) : ∃ entry ∈ registry.entries, entry.2 = scanner := by
  unfold Registry.get Registry.find? at hget
  cases hfind : registry.entries.find? fun e => e.1 == id with
  | none => simp [hfind] at hget
  | some entry =>
    simp only [hfind, Option.map_some, Except.ok.injEq] at hget
    exact ⟨entry, List.mem_of_find?_eq_some hfind, hget⟩

theorem Trusted.lawful_of_get (h : r.Trusted) {id : String} {scanner : Scanner}
    (hget : r.registry.get id = .ok scanner) : scanner.Lawful := by
  obtain ⟨entry, hmem, rfl⟩ := exists_entry_of_get hget
  exact h.registry entry hmem

theorem trusted_setLanguage (h : r.Trusted) (id : String) (source : Source) :
    (r.setLanguage id source).2.Trusted := by
  rcases r.setLanguage_cases id source with ⟨-, -, he⟩ | ⟨e, -, he⟩ | ⟨scanner, hget, -, he⟩
  · rw [he]; exact h
  · rw [he]; exact h
  · rw [he]
    have hchosen : Trusted { r with languageId := id, scanner := scanner } :=
      ⟨h.lawful_of_get hget, h.registry⟩
    exact hchosen.of_sameLanguage (sameLanguage_rebuild _ source)

end Trusted

theorem mem_insertEntry {id : String} {scanner : Scanner} {entry : String × Scanner} :
    ∀ {entries : List (String × Scanner)}, entry ∈ Registry.insertEntry id scanner entries →
      entry.2 = scanner ∨ entry ∈ entries
  | [], h => by simp [Registry.insertEntry] at h; simp [h]
  | e :: es, h => by
    unfold Registry.insertEntry at h
    split_ifs at h
    · rcases List.mem_cons.mp h with rfl | h
      · exact Or.inl rfl
      · exact Or.inr (List.mem_cons_of_mem _ h)
    · rcases List.mem_cons.mp h with rfl | h
      · exact Or.inl rfl
      · exact Or.inr h
    · rcases List.mem_cons.mp h with rfl | h
      · exact Or.inr List.mem_cons_self
      · exact (mem_insertEntry h).imp_right (List.mem_cons_of_mem _)

theorem exists_language_of_mem_builtin :
    ∀ entry ∈ Registry.builtin.entries, ∃ l : Language, l.scanner = entry.2 := by
  have key : ∀ (ls : List Language) (registry : Registry),
      (∀ entry ∈ registry.entries, ∃ l : Language, l.scanner = entry.2) →
        ∀ entry ∈ (ls.foldl (fun r l => r.register l.id l.scanner) registry).entries,
          ∃ l : Language, l.scanner = entry.2 := by
    intro ls
    induction ls with
    | nil => exact fun _ h => h
    | cons l ls ih =>
      intro registry h
      refine ih _ fun entry hmem => ?_
      rcases mem_insertEntry hmem with he | hmem
      · exact ⟨l, he.symm⟩
      · exact h entry hmem
  exact key _ _ (by simp [Registry.empty])

theorem exists_language_of_get {id : String} {scanner : Scanner}
    (hget : Registry.builtin.get id = .ok scanner) : ∃ l : Language, l.scanner = scanner := by
  obtain ⟨entry, hmem, rfl⟩ := exists_entry_of_get hget
  exact exists_language_of_mem_builtin entry hmem

/-- Every built-in scanner keeps the contract. -/
theorem lawful_builtin : ∀ entry ∈ Registry.builtin.entries, entry.2.Lawful := by
  intro entry hmem
  obtain ⟨l, hl⟩ := exists_language_of_mem_builtin entry hmem
  exact hl ▸ l.scanner_lawful

theorem exists_language_ofSettings (settings : Settings) :
    ∃ l : Language, l.scanner = (ofSettings settings).scanner := by
  show ∃ l : Language, l.scanner =
    (Registry.builtin.find? Language.plainText.id).getD Language.plainText.scanner
  unfold Registry.find?
  cases hfind : Registry.builtin.entries.find? fun e => e.1 == Language.plainText.id with
  | none => exact ⟨.plainText, rfl⟩
  | some entry => exact exists_language_of_mem_builtin entry (List.mem_of_find?_eq_some hfind)

end Linewise.Retokenizer
