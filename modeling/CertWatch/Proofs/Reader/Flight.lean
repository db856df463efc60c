import CertWatch.Proofs.Reader.Inquiries

/-!
# One flight for all inquiries

Only the head of the line for the content makes a get, and the content is there as soon as a get has
succeeded, so no other get can succeed after it. All parts are made from that content, whoever makes
them, and every answer is read off them.
-/

namespace CertWatch
set_option autoImplicit false

open Reader (Part Field Answer)
open Plan (Consultation)

namespace Reader

variable {r r' : Reader} {id : Nat} {p q : Part}

/-- The same key of the same scope, and the same parts. -/
structure Alike (r r' : Reader) : Prop where
  scope : r'.scope = r.scope
  key : r'.key = r.key
  content : r'.content.value = r.content.value
  envelope : r'.envelope.value = r.envelope.value
  digest : r'.digest.value = r.digest.value

theorem Alike.refl (r : Reader) : Alike r r := ⟨rfl, rfl, rfl, rfl, rfl⟩

theorem alike_enter (r : Reader) (id : Nat) (p : Part) : Alike r (r.enter id p) := by
  cases p <;> exact ⟨rfl, rfl, rfl, rfl, rfl⟩

theorem alike_leave (r : Reader) (id : Nat) (p : Part) : Alike r (r.leave id p) := by
  cases p <;> exact ⟨rfl, rfl, rfl, rfl, rfl⟩

theorem Alike.has_eq (alike : Alike r r') (p : Part) : r'.has p = r.has p := by
  cases p <;> simp only [has, alike.content, alike.envelope, alike.digest]

theorem holds_enter (holds : r.content.line.holds id = true) (other : Nat) (p : Part) :
    (r.enter other p).content.line.holds id = true := by
  cases p with
  | content => exact Line.holds_enter holds other
  | envelope => exact holds
  | digest => exact holds

theorem holds_leave (holds : r.content.line.holds id = true) {other : Nat} (ne : other ≠ id)
    (p : Part) : (r.leave other p).content.line.holds id = true := by
  cases p with
  | content => exact Line.holds_leave holds ne
  | envelope => exact holds
  | digest => exact holds

/-- The part that a part is made from. -/
def Part.source? : Part → Option Part
  | .content => none
  | .envelope => some .content
  | .digest => some .envelope

/-- Every answer makes a part after the one that it is made from. -/
theorem source_mem (field : Field) {made rest : List Part} (order : field.parts = made ++ p :: rest)
    (source : p.source? = some q) : q ∈ made := by
  obtain ⟨more, all⟩ : field.parts <+: [.content, .envelope, .digest] := by cases field <;> decide
  rw [order] at all
  match made with
  | [] =>
    obtain rfl : p = .content := (List.cons.inj all).1
    cases source
  | [a] =>
    obtain ⟨rfl, rfl, -⟩ : a = .content ∧ p = .envelope ∧ _ := by simpa using all
    obtain rfl : Part.content = q := Option.some.inj source
    exact List.mem_singleton_self _
  | [a, b] =>
    obtain ⟨rfl, rfl, rfl, -⟩ : a = .content ∧ b = .envelope ∧ p = .digest ∧ _ := by simpa using all
    obtain rfl : Part.envelope = q := Option.some.inj source
    exact List.mem_cons_of_mem _ (List.mem_singleton_self _)
  | a :: b :: c :: made => simp at all

/-- Every part that is there was made from the content. -/
structure Coherent (r : Reader) : Prop where
  envelope : ∀ e, r.envelope.value = some e → ∃ f, r.content.value = some f ∧ e = f.envelope
  digest : ∀ d, r.digest.value = some d →
    ∃ f, r.content.value = some f ∧ d = Record.digestOf r.key f.envelope.value

theorem Coherent.alike (h : r.Coherent) (alike : Alike r r') : r'.Coherent where
  envelope e there := by
    rw [alike.content]
    exact h.envelope e (alike.envelope ▸ there)
  digest d there := by
    rw [alike.content, alike.key]
    exact h.digest d (alike.digest ▸ there)

theorem Coherent.content_of_has (h : r.Coherent) (there : r.has p = true) :
    ∃ f, r.content.value = some f := by
  cases p with
  | content => exact Option.isSome_iff_exists.mp there
  | envelope =>
    obtain ⟨e, there⟩ := Option.isSome_iff_exists.mp there
    exact (h.envelope e there).imp fun f => And.left
  | digest =>
    obtain ⟨d, there⟩ := Option.isSome_iff_exists.mp there
    exact (h.digest d there).imp fun f => And.left

/-- A part is made from the one before it, and the others stay as they are. -/
theorem Coherent.derive (h : r.Coherent) (source : p.source? = some q) (there : r.has q = true)
    (id : Nat) :
    (r.derive id p).Coherent ∧ (r.derive id p).scope = r.scope ∧ (r.derive id p).key = r.key ∧
      (r.derive id p).content = r.content ∧ (r.derive id p).has p = true ∧
      ∀ p', r.has p' = true → (r.derive id p).has p' = true := by
  cases p with
  | content => cases source
  | envelope =>
    obtain rfl : Part.content = q := Option.some.inj source
    obtain ⟨f, fetched⟩ := Option.isSome_iff_exists.mp there
    have made : r.derive id .envelope =
        { r with envelope := r.envelope.settle id (.ok f.envelope : Except Failure Envelope) } := by
      simp only [Reader.derive, fetched]
    rw [made]
    refine ⟨⟨fun e same => ⟨f, fetched, (Option.some.inj same).symm⟩, h.digest⟩, rfl, rfl, rfl, rfl, ?_⟩
    intro p' had
    cases p' with
    | content => exact had
    | envelope => rfl
    | digest => exact had
  | digest =>
    obtain rfl : Part.envelope = q := Option.some.inj source
    obtain ⟨e, wrapped⟩ := Option.isSome_iff_exists.mp there
    obtain ⟨f, fetched, rfl⟩ := h.envelope e wrapped
    have made : r.derive id .digest = { r with
        digest := r.digest.settle id
          (.ok (Record.digestOf r.key f.envelope.value) : Except Failure Digest) } := by
      simp only [Reader.derive, wrapped]
    rw [made]
    refine ⟨⟨h.envelope, fun d same => ⟨f, fetched, (Option.some.inj same).symm⟩⟩,
      rfl, rfl, rfl, rfl, ?_⟩
    intro p' had
    cases p' with
    | content => exact had
    | envelope => exact had
    | digest => rfl

/-- Once all parts of an answer are there, the answer is what the content says. -/
theorem Coherent.answer? (h : r.Coherent) {field : Field} (all : ∀ p ∈ field.parts, r.has p = true) :
    ∃ f, r.content.value = some f ∧ r.answer? field = some (f.answer r.key field) := by
  have content : r.has .content = true := all _ (by cases field <;> simp [Field.parts])
  have envelope : r.has .envelope = true := all _ (by cases field <;> simp [Field.parts])
  obtain ⟨f, fetched⟩ := Option.isSome_iff_exists.mp content
  obtain ⟨e, wrapped⟩ := Option.isSome_iff_exists.mp envelope
  obtain ⟨f', fetched', rfl⟩ := h.envelope e wrapped
  obtain rfl : f = f' := Option.some.inj (fetched.symm.trans fetched')
  refine ⟨f, fetched, ?_⟩
  cases field with
  | value => simp [Reader.answer?, wrapped, Fetched.answer]
  | modified => simp [Reader.answer?, wrapped, Fetched.answer]
  | digest =>
    obtain ⟨d, digested⟩ := Option.isSome_iff_exists.mp (all .digest (by simp [Field.parts]))
    obtain ⟨f', fetched', rfl⟩ := h.digest d digested
    obtain rfl : f = f' := Option.some.inj (fetched.symm.trans fetched')
    simp [Reader.answer?, digested, Fetched.answer, Record.digestOf]
  | record =>
    obtain ⟨d, digested⟩ := Option.isSome_iff_exists.mp (all .digest (by simp [Field.parts]))
    obtain ⟨f', fetched', rfl⟩ := h.digest d digested
    obtain rfl : f = f' := Option.some.inj (fetched.symm.trans fetched')
    simp [Reader.answer?, wrapped, fetched, digested, Fetched.answer, Record.digestOf]

end Reader

/-- Whether the parts that a call has done with are there. -/
def Inquiry.Supplied (i : Inquiry) (r : Reader) : Prop :=
  ∃ made, i.field.parts = made ++ i.todo ∧ ∀ p ∈ made, r.has p = true

/-- What holds of a call: if it has made a get, it is the head of the line for the content, which is
not there. -/
structure Inquiry.Fits (i : Inquiry) (id : Nat) (r : Reader) : Prop where
  supplied : i.Supplied r
  flight : i.standing = .fetching →
    (∃ rest, i.todo = .content :: rest) ∧ r.content.value = none ∧ r.content.line.holds id = true

namespace Inquiry

variable {i : Inquiry} {id : Nat} {r r' : Reader} {p : Part} {rest : List Part}

theorem Supplied.later (h : i.Supplied r) (had : ∀ p, r.has p = true → r'.has p = true) :
    i.Supplied r' :=
  h.imp fun _ made => ⟨made.1, fun p mem => had p (made.2 p mem)⟩

/-- A call goes on to the part behind one that is there. -/
theorem Supplied.next (h : i.Supplied r) (todo : i.todo = p :: rest) (there : r.has p = true) :
    Fits { i with todo := rest, standing := .ready } id r where
  supplied := by
    obtain ⟨made, order, had⟩ := h
    refine ⟨made ++ [p], by simp [order, todo], fun q mem => ?_⟩
    rcases List.mem_append.mp mem with earlier | last
    · exact had q earlier
    · rwa [List.mem_singleton.mp last]
  flight flying := by cases flying

/-- More parts are there, and no call has lost its turn to fetch the content. -/
theorem Fits.later (h : i.Fits id r) (had : ∀ p, r.has p = true → r'.has p = true)
    (same : i.standing = .fetching → r'.content = r.content) : i.Fits id r' where
  supplied := h.supplied.later had
  flight flying := by
    rw [same flying]
    exact h.flight flying

theorem Fits.alike (h : i.Fits id r) (alike : Reader.Alike r r')
    (holds : r.content.line.holds id = true → r'.content.line.holds id = true) : i.Fits id r' where
  supplied := h.supplied.later fun p had => by rwa [alike.has_eq]
  flight flying := by
    obtain ⟨todo, missing, turn⟩ := h.flight flying
    exact ⟨todo, alike.content.trans missing, holds turn⟩

theorem alike_leave (i : Inquiry) (id : Nat) (r : Reader) : Reader.Alike r (i.leave id r) := by
  unfold leave
  split
  · exact .refl r
  · exact .refl r
  · exact Reader.alike_leave r id _

theorem holds_leave (i : Inquiry) {other : Nat} (ne : id ≠ other)
    (holds : r.content.line.holds other = true) : (i.leave id r).content.line.holds other = true := by
  unfold leave
  split
  · exact holds
  · exact holds
  · exact Reader.holds_leave holds ne _

end Inquiry

namespace Readout

variable {scope : Scope} {key : String} {s s' : Readout}

/-- The successful gets, as they were answered. -/
def successes (s : Readout) : List (Option Bytes) := s.gets.filterMap fun g => g.2.toOption

/-- Where the content comes from: from the one get that has succeeded, or nowhere. -/
def Origin (scope : Scope) (key : String) (s : Readout) : Prop :=
  match s.reader.content.value with
  | none => s.successes = [] ∧ s.consulted = []
  | some f => ∃ stored, s.successes = [stored] ∧ f.raw = stored.getD [] ∧
      scope.Opens key f.raw s.consulted f.payload

/-- What holds between any two steps. -/
structure Sound (scope : Scope) (key : String) (s : Readout) : Prop where
  scope_eq : s.reader.scope = scope
  key_eq : s.reader.key = key
  origin : Origin scope key s
  coherent : s.reader.Coherent
  inquiries : ∀ id i, s.inquiries id = some i → i.Fits id s.reader
  told : ∀ id field o, (id, field, .ok o) ∈ s.told →
    ∃ f, s.reader.content.value = some f ∧ o = some (f.answer key field)
  failed : ∀ id field f, (id, field, .error f) ∈ s.told → (id, .error f) ∈ s.gets

theorem successes_receive (id : Nat) (i : Inquiry) (answer : Except Failure (Option Bytes))
    (consulted : List Consultation) (made : Except Failure Fetched) :
    (s.receive id i answer consulted made).successes = s.successes ++ answer.toOption.toList := by
  cases answer <;> simp [receive, successes, Except.toOption]

/-- Calls and lines move, and no part is made. -/
theorem Sound.rearrange (h : Sound scope key s) {r : Reader} (alike : Reader.Alike s.reader r)
    {inquiries : Nat → Option Inquiry} (fits : ∀ id i, inquiries id = some i → i.Fits id r)
    (asked : Nat) : Sound scope key { s with reader := r, inquiries, asked } where
  scope_eq := alike.scope.trans h.scope_eq
  key_eq := alike.key.trans h.key_eq
  origin := by
    have origin := h.origin
    unfold Origin at origin ⊢
    rw [alike.content]
    exact origin
  coherent := h.coherent.alike alike
  inquiries := fits
  told id field o mem := by
    rw [alike.content]
    exact h.told id field o mem
  failed := h.failed

/-- A call goes on, or is over, and the reader stays as it is. -/
theorem Sound.carry (h : Sound scope key s) {id : Nat} {i? : Option Inquiry}
    (fits : ∀ i, i? = some i → i.Fits id s.reader) : Sound scope key (s.carry id i?) :=
  h.rearrange (.refl _) (forall_update fits fun id i _ here => h.inquiries id i here) _

theorem Sound.ask (h : Sound scope key s) (field : Field) :
    Sound scope key
      { s.carry s.asked (some { field, todo := field.parts }) with asked := s.asked + 1 } := by
  refine h.rearrange (.refl _) (forall_update ?_ fun id i _ here => h.inquiries id i here) _
  rintro i ⟨⟩
  exact ⟨⟨[], rfl, by simp⟩, by simp⟩

theorem Sound.find (h : Sound scope key s) {id : Nat} {i : Inquiry} {p : Part} {rest : List Part}
    (here : s.inquiries id = some i) (todo : i.todo = p :: rest) (there : s.reader.has p = true) :
    Sound scope key (s.carry id (some { i with todo := rest, standing := .ready })) := by
  refine h.carry ?_
  rintro i' ⟨⟩
  exact (h.inquiries id i here).supplied.next todo there

theorem Sound.join (h : Sound scope key s) {id : Nat} {i : Inquiry} (p : Part)
    (here : s.inquiries id = some i) :
    Sound scope key
      { s.carry id (some { i with standing := .waiting }) with reader := s.reader.enter id p } := by
  have alike := Reader.alike_enter s.reader id p
  refine h.rearrange alike (forall_update ?_ fun id' i' _ here' => ?_) _
  · rintro i' ⟨⟩
    have supplied := (h.inquiries id i here).supplied
    exact ⟨supplied.later fun p had => by rwa [alike.has_eq], by simp⟩
  · exact (h.inquiries id' i' here').alike alike fun holds => Reader.holds_enter holds id p

theorem Sound.fetch (h : Sound scope key s) {id : Nat} {i : Inquiry} {rest : List Part}
    (here : s.inquiries id = some i) (todo : i.todo = .content :: rest)
    (missing : s.reader.has .content = false) (turn : s.reader.admits id .content = true) :
    Sound scope key (s.carry id (some { i with standing := .fetching })) := by
  have missing : s.reader.content.value = none := by simpa [Reader.has] using missing
  have holds : s.reader.content.line.holds id = true := by
    simpa [Reader.admits, Once.admits, missing] using turn
  refine h.carry ?_
  rintro i' ⟨⟩
  exact ⟨(h.inquiries id i here).supplied, fun _ => ⟨⟨rest, todo⟩, missing, holds⟩⟩

theorem Sound.callOff (h : Sound scope key s) (id : Nat) (i : Inquiry) :
    Sound scope key { s.carry id none with reader := i.leave id s.reader } := by
  have alike := i.alike_leave id s.reader
  refine h.rearrange alike (forall_update (by simp) fun id' i' ne here => ?_) _
  exact (h.inquiries id' i' here).alike alike (i.holds_leave ne.symm)

theorem Sound.derive (h : Sound scope key s) {id : Nat} {i : Inquiry} {p : Part} {rest : List Part}
    (here : s.inquiries id = some i) (todo : i.todo = p :: rest) (derived : p ≠ .content) :
    Sound scope key { s.carry id (some { i with todo := rest, standing := .ready }) with
      reader := s.reader.derive id p } := by
  have fits := h.inquiries id i here
  obtain ⟨made, order, had⟩ := fits.supplied
  obtain ⟨q, source⟩ : ∃ q, p.source? = some q := by cases p <;> simp [Part.source?] at derived ⊢
  have there := had q (Reader.source_mem i.field (order.trans (by rw [todo])) source)
  obtain ⟨coherent, scope, key, content, has, kept⟩ := h.coherent.derive source there id
  exact {
    scope_eq := scope.trans h.scope_eq
    key_eq := key.trans h.key_eq
    origin := by
      have origin := h.origin
      unfold Origin at origin ⊢
      rw [show (s.reader.derive id p).content.value = _ from congrArg Once.value content]
      exact origin
    coherent
    inquiries := forall_update
      (by rintro i' ⟨⟩; exact (fits.supplied.later kept).next todo has)
      fun id' i' _ here' => (h.inquiries id' i' here').later kept fun _ => content
    told := by
      rw [show (s.reader.derive id p).content.value = _ from congrArg Once.value content]
      exact h.told
    failed := h.failed }

theorem Sound.answer (h : Sound scope key s) {id : Nat} {i : Inquiry}
    (here : s.inquiries id = some i) (all : i.todo = []) :
    Sound scope key
      { s.carry id none with told := s.told ++ [(id, i.field, .ok (s.reader.answer? i.field))] } := by
  obtain ⟨made, order, had⟩ := (h.inquiries id i here).supplied
  rw [all, List.append_nil] at order
  obtain ⟨f, fetched, answer⟩ := h.coherent.answer? (order ▸ had)
  have rest : Sound scope key (s.carry id none) := h.carry (by simp)
  refine { rest with told := fun id' field o mem => ?_, failed := fun id' field f mem => ?_ }
  · rcases List.mem_append.mp mem with earlier | last
    · exact h.told id' field o earlier
    · simp only [List.mem_singleton, Prod.mk.injEq, Except.ok.injEq] at last
      obtain ⟨rfl, rfl, rfl⟩ := last
      exact ⟨f, fetched, by rw [answer, h.key_eq]⟩
  · rcases List.mem_append.mp mem with earlier | last
    · exact h.failed id' field f earlier
    · simp at last

/-- A get that fails leaves no trace but in the line, and the call that has made it fails. -/
theorem Sound.fail (h : Sound scope key s) {id : Nat} (i : Inquiry) (f : Failure) :
    Sound scope key (s.receive id i (.error f) [] (.error f)) := by
  have alike := Reader.alike_leave s.reader id .content
  have rest : Sound scope key { s.carry id none with reader := s.reader.leave id .content } := by
    refine h.rearrange alike (forall_update (by simp) fun id' i' ne here => ?_) _
    exact (h.inquiries id' i' here).alike alike fun holds => Reader.holds_leave holds ne.symm _
  refine { rest with origin := ?_, told := fun id' field o mem => ?_, failed := fun id' field f' mem => ?_ }
  · have origin := h.origin
    unfold Origin at origin ⊢
    rw [show (s.receive id i (.error f) [] (.error f)).reader.content.value = _ from alike.content]
    simp only [successes_receive]
    simpa [receive, Except.toOption] using origin
  · rcases List.mem_append.mp mem with earlier | last
    · exact h.told id' field o earlier
    · simp at last
  · rcases List.mem_append.mp mem with earlier | last
    · exact List.mem_append_left _ (h.failed id' field f' earlier)
    · simp only [List.mem_singleton, Prod.mk.injEq, Except.error.injEq] at last
      obtain ⟨rfl, rfl, rfl⟩ := last
      exact List.mem_append_right _ (List.mem_singleton_self _)

/-- The first get that succeeds fills the cell, and nobody else has one under way. -/
theorem Sound.fill (h : Sound scope key s) {id : Nat} {i : Inquiry}
    (here : s.inquiries id = some i) (fetching : i.standing = .fetching) (stored : Option Bytes)
    {consulted : List Consultation} {payload : Bytes}
    (opens : scope.Opens key (stored.getD []) consulted payload) :
    Sound scope key (s.receive id i (.ok stored) consulted (.ok ⟨stored.getD [], payload⟩)) := by
  have fits := h.inquiries id i here
  obtain ⟨⟨rest, todo⟩, missing, turn⟩ := fits.flight fetching
  have origin := h.origin
  simp only [Origin, missing] at origin
  -- There is no part as yet, so there is nothing that could not have been made from this content.
  have kept : ∀ p, s.reader.has p = true →
      (s.reader.settle id (.ok ⟨stored.getD [], payload⟩)).has p = true := by
    intro p had
    obtain ⟨f, fetched⟩ := h.coherent.content_of_has had
    simp [missing] at fetched
  exact {
    scope_eq := h.scope_eq
    key_eq := h.key_eq
    origin := ⟨stored, by simp [successes_receive, origin.1, Except.toOption], rfl, by
      simpa [receive, origin.2] using opens⟩
    coherent := by
      refine ⟨fun e there => ?_, fun d there => ?_⟩
      · obtain ⟨f, fetched, -⟩ := h.coherent.envelope e there
        simp [missing] at fetched
      · obtain ⟨f, fetched, -⟩ := h.coherent.digest d there
        simp [missing] at fetched
    inquiries := by
      refine forall_update ?_ fun id' i' ne here' => ?_
      · rintro i' ⟨⟩
        rw [todo]
        exact (fits.supplied.later kept).next todo rfl
      · refine (h.inquiries id' i' here').later kept fun flying => ?_
        -- Two heads of one line are one, so no other get is under way.
        have turn' := ((h.inquiries id' i' here').flight flying).2.2
        exact absurd (Line.eq_of_holds turn turn') ne
    told := fun id' field o mem => by
      obtain ⟨f, fetched, -⟩ := h.told id' field o mem
      simp [missing] at fetched
    failed := fun id' field f mem => List.mem_append_left _ (h.failed id' field f mem) }

theorem Sound.receive (h : Sound scope key s) {id : Nat} {i : Inquiry}
    (here : s.inquiries id = some i) (fetching : i.standing = .fetching)
    (answer : Except Failure (Option Bytes)) {consulted : List Consultation}
    {made : Except Failure Fetched}
    (concludes : (s.reader.received answer).Concludes consulted made) :
    Sound scope key (s.receive id i answer consulted made) := by
  cases answer with
  | error f =>
    obtain ⟨rfl, rfl⟩ := Reader.concludes_received concludes
    exact h.fail i f
  | ok stored =>
    obtain ⟨payload, rfl, opens⟩ := Reader.concludes_received concludes
    rw [h.scope_eq, h.key_eq] at opens
    exact h.fill here fetching stored opens

theorem Sound.step (h : Sound scope key s) {e : Event} (step : Step s e s') : Sound scope key s' := by
  cases step with
  | ask field => exact h.ask field
  | find id here todo still there => exact h.find here todo there
  | @join id i p rest here todo ready missing => exact h.join p here
  | fetch id here todo waiting missing turn => exact h.fetch here todo missing turn
  | receive id here fetching plan answer concludes =>
    exact h.receive here fetching answer (Reader.eq_received plan ▸ concludes)
  | derive id here todo derived waiting missing turn => exact h.derive here todo derived
  | answer id here all => exact h.answer here all
  | @callOff id i here => exact h.callOff id i

theorem Sound.of_create {r : Reader} (created : Reader.create scope key = .ok r) :
    Sound scope key { reader := r } := by
  obtain rfl : r = { scope, key } := by
    by_cases empty : key = ""
    · simp [Reader.create, KeyPath.ofKey, empty, Except.map] at created
    · simpa [Reader.create, KeyPath.ofKey, empty, Except.map, eq_comm] using created
  exact {
    scope_eq := rfl
    key_eq := rfl
    origin := ⟨rfl, rfl⟩
    coherent := ⟨by simp, by simp⟩
    inquiries := by simp
    told := by simp
    failed := by simp }

theorem Sound.run (h : Sound scope key s) (run : Run Step s s') : Sound scope key s' :=
  run.keeps (fun _ _ _ h step => h.step step) h

/-- The handler is asked at most once for one content. -/
theorem length_le_of_opens {raw payload : Bytes} {asked : List Consultation}
    (opens : scope.Opens key raw asked payload) : asked.length ≤ 1 := by
  unfold Scope.Opens at opens
  split at opens
  · simp [opens.1]
  · split at opens
    · simp [opens.1]
    · split at opens
      · simp [opens.1]
      · obtain ⟨substitute, rfl, -⟩ := opens
        exact Nat.le_refl 1

/-- A get that fails changes no part and no other call. -/
theorem Step.of_failed {id : Nat} {f : Failure} (step : Step s (.received id (.error f)) s') :
    Reader.Alike s.reader s'.reader ∧ ∀ id', id' ≠ id → s'.inquiries id' = s.inquiries id' := by
  cases step with
  | receive _ here fetching plan _ concludes =>
    obtain rfl := Reader.eq_received plan
    obtain ⟨rfl, rfl⟩ := Reader.concludes_received concludes
    exact ⟨Reader.alike_leave s.reader id .content, fun id' ne => Function.update_of_ne ne _ _⟩

/-- However many calls ask a reader at the same time, whatever the store answers and when, and
whichever calls are called off: at most one get succeeds and the handler is asked at most once; every
call that is answered is told what the stored bytes of that one get say, and a call that fails has
made a get that failed. A get that fails is forgotten: a part is there only if a get has succeeded. -/
theorem reads_one_content {r : Reader} (created : Reader.create scope key = .ok r)
    (run : Run Step { reader := r } s) :
    s.successes.length ≤ 1 ∧ s.consulted.length ≤ 1 ∧
    (∀ id field o, (id, field, .ok o) ∈ s.told →
      ∃ stored payload, s.successes = [stored] ∧
        scope.Opens key (stored.getD []) s.consulted payload ∧
        o = some (Fetched.answer ⟨stored.getD [], payload⟩ key field)) ∧
    (∀ id field f, (id, field, .error f) ∈ s.told → (id, .error f) ∈ s.gets) ∧
    (∀ p, s.reader.has p = true → ∃ stored, s.successes = [stored]) ∧
    ∀ id f s', Step s (.received id (.error f)) s' → Reader.Alike s.reader s'.reader ∧
      ∀ id', id' ≠ id → s'.inquiries id' = s.inquiries id' := by
  have sound := (Sound.of_create created).run run
  have origin := sound.origin
  unfold Origin at origin
  cases content : s.reader.content.value with
  | none =>
    simp only [content] at origin
    refine ⟨by simp [origin.1], by simp [origin.2], ?_, sound.failed, ?_, fun _ _ _ => Step.of_failed⟩
    · intro id field o mem
      obtain ⟨f, fetched, -⟩ := sound.told id field o mem
      simp [content] at fetched
    · intro p there
      obtain ⟨f, fetched⟩ := sound.coherent.content_of_has there
      simp [content] at fetched
  | some f =>
    simp only [content] at origin
    obtain ⟨stored, once, raw, opens⟩ := origin
    refine ⟨by simp [once], length_le_of_opens opens, ?_, sound.failed, fun _ _ => ⟨stored, once⟩,
      fun _ _ _ => Step.of_failed⟩
    intro id field o mem
    obtain ⟨f', fetched, answer⟩ := sound.told id field o mem
    obtain rfl : f = f' := Option.some.inj (content.symm.trans fetched)
    exact ⟨stored, f.payload, once, raw ▸ opens, by rw [answer, ← raw]⟩

/-- A reader in a scope with sealed values. -/
def sealedReader : Reader where
  scope := { name := "ns", sealKey := some ⟨List.replicate keyLength 0, by decide⟩ }
  key := "ns/a"

theorem reads_one_content_of_failed_get : ∃ s, Run Step { reader := sealedReader } s ∧
    s.told = [(0, .value, .error .cancelled), (1, .value, .ok (some (.value [])))] ∧
    s.successes.length ≤ 1 ∧ s.consulted.length ≤ 1 := by
  have asked : Run Step { reader := sealedReader } _ := .single (.ask .value)
  have asked' := asked.tail (.ask .value)
  have joined := asked'.tail (.join 0 rfl rfl rfl rfl)
  have joined' := joined.tail (.join 1 rfl rfl rfl rfl)
  have fetched := joined'.tail (.fetch 0 rfl rfl rfl rfl rfl)
  have failed := fetched.tail (.receive 0 rfl rfl (Reader.plan_eq _) (.error .cancelled) (.done _))
  have fetched' := failed.tail (.fetch 1 rfl rfl rfl rfl rfl)
  have received := fetched'.tail (.receive 1 rfl rfl (Reader.plan_eq _) (.ok (some [7])) (.consult none (.done _)))
  have wanted := received.tail (.join 1 rfl rfl rfl rfl)
  have made := wanted.tail (.derive 1 rfl rfl (by decide) rfl rfl rfl)
  have answered := made.tail (.answer 1 rfl rfl)
  have created : Reader.create sealedReader.scope "ns/a" = .ok sealedReader := rfl
  obtain ⟨once, consulted, -⟩ := reads_one_content created answered
  have empty : Envelope.parseOrEmpty [] = {} := by
    simp [Envelope.parseOrEmpty, Envelope.parse, Utf8.decodeLossy, Utf8.pieces]
  refine ⟨_, answered, ?_, once, consulted⟩
  show [(0, Field.value, Except.error Failure.cancelled),
    (1, Field.value, Except.ok (some (Answer.value (Envelope.parseOrEmpty []).value)))] = _
  rw [empty]

end Readout
end CertWatch
