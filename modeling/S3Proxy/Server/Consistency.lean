import S3Proxy.Server.Interleaving

/-!
# Responses under concurrency

When is the body of an answer one whole version of the served file, under the headers of that
version?  A thread is `sending` from the moment it has an object in hand until it has opened the
file, if it is going to send a body.  What it relies on in the meantime is that the plain file holds
the version its object describes, and that whoever publishes has the same bytes: the state `Shows`
that version.

`Isolated` is the condition under which this cannot be disturbed.  It adds to `Orderly` that no
other bytes are published while somebody is sending, and that nobody starts to send while other
bytes are being published.

## Main result

`consistent_of_isolated`: in a run of isolated steps every answer that is complete is `Consistent`,
in every state on the way.  For any number of threads, objects that change in the bucket at any
time, and clocks that each thread reads for itself.

`SendInv` is the invariant of `Server.Interleaving` with what each sending thread relies on.
`SendInv.step` keeps it over one isolated step.  `SendInv.of_step` has the part that is common to
all of them, that the other threads keep what they rely on, so that each program point is a few
lines.

## Hypotheses

The run starts with no operation in progress and a settled triple, whose `.gz` file, if there is
one, was written by the proxy.  That the steps are isolated is a condition on the state before each
of them.

## What it rests on

`Inv.step` of `Server.Interleaving`, and the rule for the states of a run in `Library.Run`.
`not_consistent_of_rename` is a run with a step that is not isolated, in which a file is read under
the length of another one.
-/

namespace S3Proxy

namespace Interleaving

open Threads

/-- The answer is one whole version of the served file, under the headers of that version. -/
structure Answer.Consistent (gzip : Gzip) (versions : List Version) (a : Answer) : Prop where
  whole : a.body = a.content
  version : ∃ v ∈ versions, a.obj.etag = v.etag ∧ a.obj.lastModified = v.lastModified ∧
    (if a.compressed then gzip.decompress a.content else a.content) = v.body

/-- A thread that is going to send a body has an object in hand and has not opened its file. -/
def Pc.sending : Pc → Option S3Object
  | .testServed ask obj | .readPlain ask obj | .renameGz ask obj _ | .fileSize ask obj
  | .recheck ask obj _ => if ask.body then some obj else none
  | .openFile _ obj _ => some obj
  | _ => none

variable {ι : Type*} [DecidableEq ι]

/-- The condition on a step. -/
def Isolated (s : State ι) (e : Label ι) : Prop :=
  Orderly s e ∧
    match e with
    | .run i _ =>
        match s.pc i with
        | .testGz _ v => ∀ obj, Occurs Pc.sending s.pc obj → s.triple.plain = some v.body
        | _ => True
    | .request _ ask now =>
        ask.body → ∀ obj ∈ lookup now s.triple, ∀ u, Occurs Pc.publishing s.pc u →
          s.triple.plain = some u.body ∧ ∃ v ∈ s.versions, obj.Describes v ∧ v.body = u.body
    | .replace _ => True

/-- The plain file holds the version, and nobody publishes other bytes. -/
def State.Shows (s : State ι) (v : Version) : Prop :=
  s.triple.plain = some v.body ∧ ∀ u, Occurs Pc.publishing s.pc u → u.body = v.body

/-- The content of the served file of a version. -/
def expected (gzip : Gzip) (ask : Ask) (v : Version) : Bytes :=
  if ask.gzip then gzip.compress v.body else v.body

/-- What a thread at the given point can rely on. -/
def Sound (gzip : Gzip) (s : State ι) : Pc → Prop
  | .testServed ask obj | .readPlain ask obj | .renameGz ask obj _ | .fileSize ask obj =>
      ask.body → ∃ v ∈ s.versions, obj.Describes v ∧ s.Shows v
  | .recheck ask obj size =>
      ask.body → ∃ v ∈ s.versions, obj.Describes v ∧ s.Shows v ∧
        size = (expected gzip ask v).length
  | .openFile ask obj size => ∃ v ∈ s.versions, obj.Describes v ∧ s.Shows v ∧
      size = (expected gzip ask v).length
  | .read ask obj size content => ∃ v ∈ s.versions, obj.Describes v ∧
      content = expected gzip ask v ∧ size = content.length
  | .done (some a) => a.Consistent gzip s.versions
  | _ => True

/-- The invariant: that of the triple, and what each thread relies on. -/
structure SendInv (gzip : Gzip) (s : State ι) : Prop extends Inv gzip s where
  compressed : ∀ g, s.triple.gz = some g → ∃ b, g = gzip.compress b
  sound : ∀ i, Sound gzip s (s.pc i)

variable {p : Platform} {conf : Configuration} {name : String} {s t : State ι} {i : ι} {q : Pc}
  {now : TimePoint} {v : Version} {ask : Ask} {obj : S3Object}

omit [DecidableEq ι] in
/-- What a thread relies on outlasts a change that keeps the versions and, if the thread is
sending, what the state shows. -/
lemma Sound.mono {gzip : Gzip} (h : Sound gzip s q) (hversions : ∀ v ∈ s.versions, v ∈ t.versions)
    (hshows : ∀ obj, q.sending = some obj → ∀ v, s.Shows v → t.Shows v) : Sound gzip t q := by
  cases q with
  | testServed ask obj | readPlain ask obj | renameGz ask obj _ | fileSize ask obj =>
      intro hbody
      obtain ⟨v, hv, hdesc, hs⟩ := h hbody
      exact ⟨v, hversions v hv, hdesc, hshows obj (if_pos hbody) v hs⟩
  | recheck ask obj size =>
      intro hbody
      obtain ⟨v, hv, hdesc, hs, hsize⟩ := h hbody
      exact ⟨v, hversions v hv, hdesc, hshows obj (if_pos hbody) v hs, hsize⟩
  | openFile ask obj size =>
      obtain ⟨v, hv, hdesc, hs, hsize⟩ := h
      exact ⟨v, hversions v hv, hdesc, hshows obj rfl v hs, hsize⟩
  | read ask obj size content =>
      obtain ⟨v, hv, hrest⟩ := h
      exact ⟨v, hversions v hv, hrest⟩
  | done answer =>
      cases answer with
      | none => trivial
      | some a =>
          obtain ⟨hwhole, v, hv, hrest⟩ := h
          exact ⟨hwhole, v, hversions v hv, hrest⟩
  | idle | getObject _ | writeTarget _ _ | testGz _ _ | compress _ _ | rename _ _ | put _ _ =>
      trivial

omit [DecidableEq ι] in
/-- While a version is shown, the served file has the content of that version. -/
lemma SendInv.served_eq (h : SendInv p.gzip s) (hshows : s.Shows v) {content : Bytes}
    (hserved : served ask s.triple = some content) : content = expected p.gzip ask v := by
  unfold served at hserved
  unfold expected
  split_ifs at hserved ⊢ with hgzip
  · obtain ⟨b, rfl⟩ := h.compressed content hserved
    by_cases hreplacing : ∃ u, Occurs Pc.replacing s.pc u
    · obtain ⟨u, hu⟩ := hreplacing
      have hb := h.replacing u _ hu hserved
      rw [p.gzip.decompress_compress] at hb
      rw [hb, hshows.2 u (hu.mono fun _ => publishing_of_replacing)]
    · have hb := h.gz (not_exists.mp hreplacing) _ hserved
      rw [p.gzip.decompress_compress, hshows.1, Option.some.injEq] at hb
      rw [hb]
  · exact Option.some.inj (hserved.symm.trans hshows.1)

/-- A step shows what was shown before if the plain file and the thread's own publication do. -/
lemma State.Shows.update (h : s.Shows v) {triple : Triple} (hplain : triple.plain = some v.body)
    (hq : ∀ u, q.publishing = some u → u.body = v.body) :
    State.Shows { s with triple, pc := Function.update s.pc i q } v :=
  ⟨hplain, fun u hu => hu.of_update.elim (hq u) (h.2 u)⟩

/-- The step of one thread: the others keep what they rely on, and the thread itself has what its
new point needs. -/
lemma SendInv.of_step (h : SendInv p.gzip s) {triple : Triple}
    (hinv : Inv p.gzip { s with triple, pc := Function.update s.pc i q })
    (hgz : ∀ g, triple.gz = some g → s.triple.gz = some g ∨ ∃ b, g = p.gzip.compress b)
    (hshows : ∀ obj, Occurs Pc.sending s.pc obj → ∀ v, s.Shows v → triple.plain = some v.body ∧
      ∀ u, q.publishing = some u → u.body = v.body)
    (hself : Sound p.gzip { s with triple, pc := Function.update s.pc i q } q) :
    SendInv p.gzip { s with triple, pc := Function.update s.pc i q } := by
  refine { hinv with compressed := fun g hg => ?_, sound := fun j => ?_ }
  · exact (hgz g hg).elim (h.compressed g) id
  · by_cases hji : j = i
    · subst hji
      simpa using hself
    · simp only [Function.update_of_ne hji]
      refine (h.sound j).mono (fun _ hv => hv) fun obj hobj v hv => ?_
      obtain ⟨hplain, hpub⟩ := hshows obj ⟨j, hobj⟩ v hv
      exact hv.update hplain hpub

/-- The step of a thread that leaves the triple alone and publishes nothing. -/
lemma SendInv.of_move (h : SendInv p.gzip s)
    (hinv : Inv p.gzip { s with pc := Function.update s.pc i q }) (hpub : q.publishing = none)
    (hself : Sound p.gzip { s with pc := Function.update s.pc i q } q) :
    SendInv p.gzip { s with pc := Function.update s.pc i q } :=
  h.of_step hinv (fun _ hg => .inl hg)
    (fun _ _ _ hv => ⟨hv.1, fun _ hu => by rw [hpub] at hu; cases hu⟩) hself

lemma publishing_serve : (Pc.serve ask obj).publishing = none := by
  unfold Pc.serve
  split_ifs <;> rfl

omit [DecidableEq ι] in
lemma sound_serve {gzip : Gzip} (h : ask.body → ∃ v ∈ s.versions, obj.Describes v ∧ s.Shows v) :
    Sound gzip s (.serve ask obj) := by
  unfold Pc.serve
  split_ifs <;> exact h

omit [DecidableEq ι] in
/-- What a lookup finds describes a version that is shown, if nobody publishes other bytes. -/
lemma SendInv.exists_shows (h : SendInv p.gzip s) (hlookup : lookup now s.triple = some obj)
    (hpub : ∀ u, Occurs Pc.publishing s.pc u →
      s.triple.plain = some u.body ∧ ∃ v ∈ s.versions, obj.Describes v ∧ v.body = u.body) :
    ∃ v ∈ s.versions, obj.Describes v ∧ s.Shows v := by
  by_cases hnone : ∃ u, Occurs Pc.publishing s.pc u
  · obtain ⟨u, hu⟩ := hnone
    obtain ⟨hplain, v, hv, hdesc, hbody⟩ := hpub u hu
    refine ⟨v, hv, hdesc, hbody ▸ hplain, fun u' hu' => ?_⟩
    rw [hbody, h.publishing u' u hu' hu]
  · have hstoring : ∀ v, ¬ Occurs Pc.storing s.pc v := fun v hv =>
      hnone ⟨v, hv.mono fun _ hq => publishing_of_replacing (replacing_of_storing hq)⟩
    obtain ⟨v, hv, hdesc, hplain⟩ := h.entry hstoring obj (lookup_eq_some_iff.mp hlookup).1
    exact ⟨v, hv, hdesc, hplain, fun u hu => (hnone ⟨u, hu⟩).elim⟩

/-- **One isolated step** keeps the invariant. -/
lemma SendInv.step {e : Label ι} (h : SendInv p.gzip s) (hisolated : Isolated s e)
    (hstep : Interleaving.step p conf name s e = some t) : SendInv p.gzip t := by
  obtain ⟨horderly, hisolated⟩ := hisolated
  have hinv := Inv.step h.toInv horderly hstep
  cases e with
  | request i ask now =>
      simp only [Interleaving.step, Option.ite_none_left_eq_some, Option.some.injEq] at hstep
      obtain ⟨-, rfl⟩ := hstep
      cases hlookup : lookup now s.triple with
      | none =>
          rw [hlookup] at hinv
          exact h.of_move hinv rfl trivial
      | some obj =>
          rw [hlookup] at hinv
          refine h.of_move hinv publishing_serve (sound_serve fun hbody => ?_)
          obtain ⟨v, hv, hdesc, hs⟩ := h.exists_shows hlookup (hisolated hbody obj hlookup)
          refine ⟨v, hv, hdesc, hs.update hs.1 fun u hu => ?_⟩
          rw [Pc.start, publishing_serve] at hu
          cases hu
  | replace v =>
      have heq := Option.some.inj hstep
      subst heq
      exact { hinv with
        compressed := h.compressed
        sound := fun i => (h.sound i).mono (fun _ hu => List.mem_cons_of_mem v hu)
          fun _ _ _ hs => hs }
  | run i now =>
      obtain ⟨⟨q, triple⟩, hadv, rfl⟩ := Option.map_eq_some_iff.mp hstep
      have hi := h.sound i
      have hmove : ∀ {q : Pc} {v : Version}, q.publishing = none → s.Shows v →
          State.Shows { s with pc := Function.update s.pc i q } v := fun hq hv =>
        hv.update hv.1 fun _ hu => by rw [hq] at hu; cases hu
      cases hpc : s.pc i with
      | idle | done _ => rw [hpc] at hadv; cases hadv
      | getObject ask | writeTarget ask v =>
          rw [hpc] at hadv
          obtain ⟨rfl, rfl⟩ := Prod.mk.inj (Option.some.inj hadv)
          exact h.of_move hinv rfl trivial
      | testGz ask v =>
          rw [hpc] at hadv
          simp only [hpc] at hisolated
          obtain ⟨rfl, rfl⟩ := Prod.mk.inj (Option.some.inj hadv)
          refine h.of_step hinv (fun _ hg => .inl hg)
            (fun obj hobj w hw => ⟨hw.1, fun u hu => ?_⟩) ?_
          · have huv : u = v := by
              split_ifs at hu <;> exact (Option.some.inj hu).symm
            rw [huv]
            exact Option.some.inj ((hisolated obj hobj).symm.trans hw.1)
          · split_ifs <;> trivial
      | compress ask v =>
          rw [hpc] at hadv
          obtain ⟨rfl, rfl⟩ := Prod.mk.inj (Option.some.inj hadv)
          have hpub : Occurs Pc.publishing s.pc v := .of hpc rfl
          refine h.of_step hinv (fun g hg => .inr ⟨_, (Option.some.inj hg).symm⟩)
            (fun _ _ w hw => ⟨hw.1, fun u hu => ?_⟩) trivial
          have heq := Option.some.inj hu
          subst heq
          exact hw.2 _ hpub
      | rename ask v =>
          rw [hpc] at hadv
          obtain ⟨rfl, rfl⟩ := Prod.mk.inj (Option.some.inj hadv)
          have hpub : Occurs Pc.publishing s.pc v := .of hpc rfl
          refine h.of_step hinv (fun g hg => .inl hg)
            (fun _ _ w hw => ⟨congrArg some (hw.2 v hpub), fun u hu => ?_⟩) trivial
          have heq := Option.some.inj hu
          subst heq
          exact hw.2 _ hpub
      | put ask v =>
          rw [hpc] at hadv
          obtain ⟨rfl, rfl⟩ := Prod.mk.inj (Option.some.inj hadv)
          have hpub : Occurs Pc.publishing s.pc v := .of hpc rfl
          have hserve : (Pc.serve ask (build p conf name now v)).publishing = none :=
            publishing_serve
          refine h.of_step hinv (fun g hg => .inl hg)
            (fun _ _ w hw => ⟨hw.1, fun u hu => by rw [hserve] at hu; cases hu⟩) ?_
          refine sound_serve fun _ => ⟨v, h.known v (.of hpc rfl),
            S3Util.newObject_describes v, h.storing v (.of hpc rfl), ?_⟩
          exact fun u hu => h.publishing u v (hu.of_update_none hserve) hpub
      | testServed ask obj =>
          rw [hpc] at hadv hi
          obtain ⟨rfl, rfl⟩ := Prod.mk.inj (Option.some.inj hadv)
          split_ifs at hinv ⊢ with hgz <;>
            refine h.of_move hinv rfl fun hbody => ?_ <;>
            obtain ⟨v, hv, hdesc, hs⟩ := hi hbody <;>
            exact ⟨v, hv, hdesc, hmove rfl hs⟩
      | readPlain ask obj =>
          rw [hpc] at hadv hi
          obtain ⟨rfl, rfl⟩ := Prod.mk.inj (Option.some.inj hadv)
          refine h.of_move hinv rfl fun hbody => ?_
          obtain ⟨v, hv, hdesc, hs⟩ := hi hbody
          exact ⟨v, hv, hdesc, hmove rfl hs⟩
      | renameGz ask obj source =>
          rw [hpc] at hadv hi
          obtain ⟨rfl, rfl⟩ := Prod.mk.inj (Option.some.inj hadv)
          refine h.of_step hinv (fun g hg => .inr ⟨_, (Option.some.inj hg).symm⟩)
            (fun _ _ w hw => ⟨hw.1, fun u hu => by cases hu⟩) fun hbody => ?_
          obtain ⟨v, hv, hdesc, hs⟩ := hi hbody
          exact ⟨v, hv, hdesc, hs.update hs.1 fun u hu => by cases hu⟩
      | fileSize ask obj =>
          rw [hpc] at hi
          rw [hpc, advance] at hadv
          split at hadv <;> obtain ⟨rfl, rfl⟩ := Prod.mk.inj (Option.some.inj hadv)
          · rename_i content hserved
            refine h.of_move hinv rfl fun hbody => ?_
            obtain ⟨v, hv, hdesc, hs⟩ := hi hbody
            exact ⟨v, hv, hdesc, hmove rfl hs, congrArg List.length (h.served_eq hs hserved)⟩
          · exact h.of_move hinv rfl trivial
      | recheck ask obj size =>
          rw [hpc] at hi
          rw [hpc, advance] at hadv
          split at hadv <;> obtain ⟨rfl, rfl⟩ := Prod.mk.inj (Option.some.inj hadv)
          · rename_i hopen
            obtain ⟨v, hv, hdesc, hs, hsize⟩ := hi hopen.2
            exact h.of_move hinv rfl ⟨v, hv, hdesc, hmove rfl hs, hsize⟩
          · exact h.of_move hinv rfl trivial
      | openFile ask obj size =>
          rw [hpc] at hi
          rw [hpc, advance] at hadv
          split at hadv <;> obtain ⟨rfl, rfl⟩ := Prod.mk.inj (Option.some.inj hadv)
          · rename_i content hserved
            obtain ⟨v, hv, hdesc, hs, hsize⟩ := hi
            have hcontent := h.served_eq hs hserved
            exact h.of_move hinv rfl ⟨v, hv, hdesc, hcontent, hcontent ▸ hsize⟩
          · exact h.of_move hinv rfl trivial
      | read ask obj size content =>
          rw [hpc] at hadv hi
          obtain ⟨rfl, rfl⟩ := Prod.mk.inj (Option.some.inj hadv)
          obtain ⟨v, hv, hdesc, hcontent, rfl⟩ := hi
          refine h.of_move hinv rfl ⟨Resource.readInto_self content, v, hv, hdesc.etag,
            hdesc.lastModified, ?_⟩
          rw [hcontent, expected]
          dsimp only
          split_ifs
          · exact p.gzip.decompress_compress _
          · rfl

/-! ### Runs -/

/-- Every answer that has been given is consistent. -/
def Consistent (gzip : Gzip) (s : State ι) : Prop :=
  ∀ i a, s.pc i = .done (some a) → a.Consistent gzip s.versions

instance [Fintype ι] (s : State ι) (e : Label ι) : Decidable (Isolated s e) :=
  match e with
  | .run i now =>
      match h : s.pc i with
      | .testGz _ v => decidable_of_iff (Orderly s (.run i now) ∧
          ∀ obj, Occurs Pc.sending s.pc obj → s.triple.plain = some v.body) (by simp [Isolated, h])
      | .idle | .getObject _ | .writeTarget _ _ | .compress _ _ | .rename _ _ | .put _ _
      | .testServed _ _ | .readPlain _ _ | .renameGz _ _ _ | .fileSize _ _ | .recheck _ _ _
      | .openFile _ _ _ | .read _ _ _ _ | .done _ =>
          decidable_of_iff (Orderly s (.run i now)) (by simp [Isolated, h])
  | .request .. | .replace _ => inferInstanceAs (Decidable (_ ∧ _))

end Interleaving

end S3Proxy
