import JarSurvey.Proofs.Archive.Counting
import JarSurvey.Proofs.Usage

/-!
# The two views of an archive

`Archive.scan` counts what the classes of an archive mention, and `Archive.classes` lists it.  Neither of them sees
more of an archive than the other, so what is said about the counts can be checked against the lists.
-/

namespace JarSurvey

/-- A result that is only put into another form keeps its warnings and its failure. -/
lemma Traced.bind_pure_eq {α β : Type} (x : Traced α) (f : α → β) :
    (x >>= fun a => pure (f a)) = ⟨x.warnings, x.result.map f⟩ := by
  obtain ⟨warnings, error | a⟩ := x
  · rfl
  · simp [bind, pure, Except.map]

end JarSurvey

namespace JarSurvey.Archive

/-- What is read of an archive are the classes that its items contribute, and their number. -/
lemma read_ok {tree : FileTree} {path : String} {record : ArchiveRecord} {found : List ClassFile.Scan}
    (h : (read tree path).result = .ok (record, found)) :
    ∃ bytes modified items, tree.find path = .ok (.file bytes modified) ∧ Zip.read bytes = some items ∧
      found = contribution classOf maxNesting items ∧ record.classCount = found.length := by
  cases hfind : tree.find path with
  | error cause =>
      rw [read, hfind] at h
      cases h
  | ok node =>
      cases node with
      | directory =>
          rw [read, hfind] at h
          cases h
      | file bytes modified =>
          rw [result_read hfind] at h
          cases hzip : Zip.read bytes with
          | none =>
              rw [hzip] at h
              cases h
          | some items =>
              rw [hzip] at h
              dsimp only at h
              have hends := ends_walk maxNesting path items
              generalize (walk maxNesting path items).result = result at h hends
              cases hends with
              | abandoned | failed => cases h
              | counted =>
                  cases h
                  exact ⟨bytes, modified, items, rfl, hzip, rfl, rfl⟩

end JarSurvey.Archive
