import Mathlib.Data.List.Chain
import Mathlib.Data.List.Nodup
import Upkeep.Proofs.Partition.Sequence
import Upkeep.Proofs.Sql.Quoting

/-!
# The names of partitions

Upkeep names a partition after its table and its value, and it creates it unless there is a table
of that name.  A name tells which table and which value it was made of, even if the table's own
name ends like that of a partition.  So no partition is taken for another one, neither along the
values of one table nor across tables, and what is not created is there already.

## Main Definitions

* `IsGenerated` — a partition is named after its table and its value.
* `IsSuccession` — each partition comes next after the one before it.
* `Server` — what is in a database, and what statements make of it.
* `Server.CreatesIfNotExists` — what is relied on when a partition is created.

## Main Statements

* `nodup_names_iff` — generated partitions have distinct names.
* `IsSuccession.isGenerated` — what comes next is generated.
* `Server.CreatesIfNotExists.has_iff` — a statement creates its own partition.
* `generated_names_distinct` — all of this together.

## Design Notes

The database is not part of upkeep, so it is a parameter, with what is documented of
`CREATE TABLE IF NOT EXISTS` as hypotheses.  A table of the name that a statement gives is enough
for it to do nothing and to succeed, whatever that table is.  Statements may fail for reasons of
their own, and nothing is said of those.  `Server.plain` is one such database.

Names are compared in full, as upkeep writes them: that a database may cut long names short is left
out.
-/

namespace Upkeep.Partition

variable {a b partition : Partition} {ps : List Partition}

/-! ### Generated names -/

/-- The partition has the name that upkeep gives to one of its table and its value. -/
def IsGenerated (partition : Partition) : Prop :=
  partition.name = (named partition.table partition.value partition.schema).name

instance (partition : Partition) : Decidable partition.IsGenerated :=
  inferInstanceAs (Decidable (partition.name = _))

theorem isGenerated_named (table : String) (value : Int64) (schema : String) :
    (named table value schema).IsGenerated := rfl

theorem IsGenerated.name_eq_iff (ha : a.IsGenerated) (hb : b.IsGenerated) :
    a.name = b.name ↔ a.table = b.table ∧ a.value = b.value := by
  rw [ha, hb, name_named_eq_iff]

/-- **Generated partitions have distinct names** if they differ in the table or in the value. -/
theorem nodup_names_iff (generated : ∀ partition ∈ ps, partition.IsGenerated) :
    (ps.map name).Nodup ↔ ps.Pairwise fun a b => a.table ≠ b.table ∨ a.value ≠ b.value := by
  rw [List.nodup_iff_pairwise_ne, List.pairwise_map]
  refine List.Pairwise.iff_of_mem fun {a b} ha hb => ?_
  rw [ne_eq, (generated a ha).name_eq_iff (generated b hb), not_and_or]

/-! ### Successions -/

/-- Each partition comes next after the one before it, in the schema of that one or in another. -/
def IsSuccession (ps : List Partition) : Prop :=
  ps.IsChain fun a b => ∃ schema, a.following schema = .ok b

/-- What comes next has the next value of the same table, and is named after both. -/
theorem of_following {schema : String} (h : a.following schema = .ok b) :
    Follows a b ∧ b.table = a.table ∧ b.IsGenerated := by
  rw [following] at h
  split at h
  · next value found =>
      obtain rfl := Except.ok.inj h
      exact ⟨found, rfl, isGenerated_named a.table value schema⟩
  · cases h

namespace IsSuccession

theorem isSequence (h : IsSuccession ps) : IsSequence ps :=
  List.IsChain.imp (fun _ _ ⟨_, next⟩ => (of_following next).1) h

/-- **What comes next is generated**, and it is of the same table. -/
theorem isGenerated (h : IsSuccession (a :: ps)) :
    ∀ partition ∈ ps, partition.IsGenerated ∧ partition.table = a.table := by
  induction ps generalizing a with
  | nil => exact fun partition hm => absurd hm List.not_mem_nil
  | cons b ps ih =>
      obtain ⟨⟨schema, next⟩, rest⟩ := List.isChain_cons_cons.1 h
      obtain ⟨-, htable, own⟩ := of_following next
      refine List.forall_mem_cons.2 ⟨⟨own, htable⟩, fun partition hm => ?_⟩
      obtain ⟨generated, same⟩ := ih rest partition hm
      exact ⟨generated, same.trans htable⟩

theorem values_ne (h : IsSuccession ps) : ps.Pairwise fun a b => a.value ≠ b.value :=
  h.isSequence.ascending.imp fun hlt => Int64.ne_of_lt hlt

end IsSuccession

/-! ### Creating partitions -/

/-- A database server, as far as creating partitions goes. -/
structure Server (σ : Type) where
  /-- The partition is there, under its own name and of its table and value. -/
  has : σ → Partition → Prop
  /-- There is a table of the schema and name, which may be a partition or not. -/
  taken : σ → String → String → Prop
  /-- What a statement makes of the database, if it succeeds. -/
  execute : σ → String → Except Sql.Failure σ

namespace Server

variable {σ : Type} {server : Server σ} {s s' : σ}

/-- What `IF NOT EXISTS` means for a statement that creates a partition, and succeeds. -/
structure CreatesIfNotExists (server : Server σ) : Prop where
  /-- If there is a table of that schema and name then nothing is done. -/
  skips : ∀ {s s' : σ} {partition : Partition},
    server.execute s partition.createStatement.text = .ok s' →
      server.taken s partition.schema partition.name →
        server.has s' = server.has s ∧ server.taken s' = server.taken s
  /-- Otherwise there is the partition in addition, and nothing else. -/
  adds : ∀ {s s' : σ} {partition : Partition},
    server.execute s partition.createStatement.text = .ok s' →
      ¬server.taken s partition.schema partition.name →
        (∀ other, server.has s' other ↔ server.has s other ∨ other = partition) ∧
          ∀ schema name, server.taken s' schema name ↔
            server.taken s schema name ∨ schema = partition.schema ∧ name = partition.name

/-- The name of the partition is free, or else a generated partition has it. -/
def Reserves (server : Server σ) (s : σ) (partition : Partition) : Prop :=
  server.taken s partition.schema partition.name →
    ∃ other, server.has s other ∧ other.IsGenerated ∧
      other.schema = partition.schema ∧ other.name = partition.name

/-- The partitions are created one after the other, and every statement succeeds. -/
inductive Runs (server : Server σ) : List Partition → σ → σ → Prop
  | done (s : σ) : Runs server [] s s
  | next {partition : Partition} {rest : List Partition} {s s' s'' : σ}
      (executed : server.execute s partition.createStatement.text = .ok s')
      (others : Runs server rest s' s'') : Runs server (partition :: rest) s s''

namespace CreatesIfNotExists

/-- **A statement creates its own partition**, if that is not there already, and no other. -/
theorem has_iff (h : server.CreatesIfNotExists) (own : partition.IsGenerated)
    (reserves : server.Reserves s partition)
    (executed : server.execute s partition.createStatement.text = .ok s') :
    server.has s' a ↔ server.has s a ∨ a = partition := by
  by_cases taken : server.taken s partition.schema partition.name
  · -- The table of that name is the partition itself.
    obtain ⟨other, there, generated, schema, name⟩ := reserves taken
    obtain ⟨table, value⟩ := (generated.name_eq_iff own).1 name
    obtain rfl : other = partition := Partition.ext table value name schema
    rw [(h.skips executed taken).1]
    exact ⟨.inl, fun h => h.elim id fun same => same ▸ there⟩
  · exact (h.adds executed taken).1 a

/-- No name is lost to another table, as what is created is generated. -/
theorem reserves (h : server.CreatesIfNotExists) (own : partition.IsGenerated)
    (executed : server.execute s partition.createStatement.text = .ok s')
    (reserves : server.Reserves s a) : server.Reserves s' a := by
  intro taken'
  by_cases taken : server.taken s partition.schema partition.name
  · obtain ⟨has, same⟩ := h.skips executed taken
    rw [has]
    exact reserves (same ▸ taken')
  · obtain ⟨has, names⟩ := h.adds executed taken
    rcases (names _ _).1 taken' with former | ⟨schema, name⟩
    · obtain ⟨other, there, rest⟩ := reserves former
      exact ⟨other, (has other).2 (.inl there), rest⟩
    · exact ⟨partition, (has partition).2 (.inr rfl), own, schema.symm, name.symm⟩

/-- The statements of many partitions create all of them. -/
theorem has_iff_of_runs (h : server.CreatesIfNotExists) (runs : server.Runs ps s s')
    (each : ∀ partition ∈ ps, partition.IsGenerated ∧ server.Reserves s partition) :
    server.has s' a ↔ server.has s a ∨ a ∈ ps := by
  induction runs with
  | done s => simp
  | @next partition rest s s' s'' executed others ih =>
      obtain ⟨⟨own, free⟩, each⟩ := List.forall_mem_cons.1 each
      have each' : ∀ other ∈ rest, other.IsGenerated ∧ server.Reserves s' other := fun other mem =>
        ⟨(each other mem).1, h.reserves own executed (each other mem).2⟩
      rw [ih each', h.has_iff own free executed, List.mem_cons, or_assoc]

end CreatesIfNotExists

/-- One of the partitions has the schema and name. -/
def isTaken (tables : List Partition) (schema name : String) : Bool :=
  tables.any fun other => other.schema == schema && other.name == name

theorem isTaken_iff {tables : List Partition} {schema name : String} :
    isTaken tables schema name = true ↔
      ∃ other ∈ tables, other.schema = schema ∧ other.name = name := by
  simp only [isTaken, List.any_eq_true, Bool.and_eq_true, beq_iff_eq]

theorem isTaken_append {tables : List Partition} {schema name : String} :
    isTaken (tables ++ [partition]) schema name = true ↔
      isTaken tables schema name = true ∨ schema = partition.schema ∧ name = partition.name := by
  simp only [isTaken_iff, List.mem_append, List.mem_singleton, or_and_right, exists_or,
    exists_eq_left]
  rw [eq_comm (a := schema), eq_comm (a := name)]

/-- A server that executes nothing but statements which create partitions. -/
def plain : Server (List Partition) where
  has tables partition := partition ∈ tables
  taken tables schema name := isTaken tables schema name = true
  execute tables sql :=
    match Sql.Statement.ofText? sql with
    | some (.createPartition schema name table value) =>
        .ok (if isTaken tables schema name then tables
          else tables ++ [⟨table, value, name, schema⟩])
    | _ => .error (.other "unknown statement")

theorem execute_plain (tables : List Partition) (partition : Partition) :
    plain.execute tables partition.createStatement.text =
      .ok (if isTaken tables partition.schema partition.name then tables
        else tables ++ [partition]) := by
  simp only [plain, Sql.Statement.ofText?_text]
  rfl

theorem createsIfNotExists_plain : plain.CreatesIfNotExists where
  skips {tables tables' partition} executed taken := by
    rw [execute_plain, if_pos (show isTaken tables _ _ = true from taken)] at executed
    obtain rfl := Except.ok.inj executed
    exact ⟨rfl, rfl⟩
  adds {tables tables' partition} executed taken := by
    rw [execute_plain, if_neg (show ¬isTaken tables _ _ = true from taken)] at executed
    obtain rfl := Except.ok.inj executed
    refine ⟨fun other => ?_, fun schema name => ?_⟩
    · exact List.mem_append.trans (or_congr_right List.mem_singleton)
    · exact isTaken_append

/-- On this server all statements succeed. -/
theorem exists_runs_plain (ps tables : List Partition) :
    ∃ tables', plain.Runs ps tables tables' := by
  induction ps generalizing tables with
  | nil => exact ⟨tables, .done tables⟩
  | cons partition rest ih =>
      obtain ⟨tables', runs⟩ := ih _
      exact ⟨tables', .next (execute_plain tables partition) runs⟩

end Server

/-! ### All names -/

/-- **Generated names are distinct.**  They are the same only if the tables and the values are,
whatever the tables are called.  All partitions that come after any one, each next after the one
before it, are generated and have distinct names; if the first one is generated too, then so are
the names of all of them, and those of the successions of any number of tables.  So whoever creates
generated partitions gets each of them, unless some other table has its name: a statement that finds
a generated partition of its name finds the one that it is for. -/
theorem generated_names_distinct :
    (∀ (table table' schema schema' : String) (value value' : Int64),
      (named table value schema).name = (named table' value' schema').name ↔
        table = table' ∧ value = value') ∧
    (∀ (first : Partition) (rest : List Partition), IsSuccession (first :: rest) →
      (∀ partition ∈ rest, partition.IsGenerated) ∧ (rest.map name).Nodup) ∧
    (∀ successions : List (List Partition),
      (∀ ps ∈ successions, IsSuccession ps ∧ ∀ first ∈ ps.head?, first.IsGenerated) →
      successions.Pairwise (fun ps qs => ∀ a ∈ ps, ∀ b ∈ qs, a.table ≠ b.table) →
      (successions.flatten.map name).Nodup) ∧
    ∀ {σ : Type} (server : Server σ), server.CreatesIfNotExists →
      ∀ (partitions : List Partition) (s s' : σ),
        (∀ partition ∈ partitions, partition.IsGenerated ∧ server.Reserves s partition) →
        server.Runs partitions s s' →
        ∀ partition, server.has s' partition ↔ server.has s partition ∨ partition ∈ partitions := by
  refine ⟨fun _ _ _ _ _ _ => name_named_eq_iff, fun first rest h => ?_,
    fun successions each apart => ?_, fun server creates partitions s s' each runs partition =>
      creates.has_iff_of_runs runs each⟩
  · have generated : ∀ partition ∈ rest, partition.IsGenerated :=
      fun partition hm => (h.isGenerated partition hm).1
    exact ⟨generated, (nodup_names_iff generated).2
      ((List.pairwise_cons.1 h.values_ne).2.imp .inr)⟩
  · have generated : ∀ partition ∈ successions.flatten, partition.IsGenerated := by
      intro partition hm
      obtain ⟨ps, hps, hm⟩ := List.mem_flatten.1 hm
      obtain ⟨succession, start⟩ := each ps hps
      cases ps with
      | nil => exact absurd hm List.not_mem_nil
      | cons first rest =>
          rcases List.mem_cons.1 hm with rfl | hm
          · exact start partition rfl
          · exact (succession.isGenerated partition hm).1
    rw [nodup_names_iff generated, List.pairwise_flatten]
    exact ⟨fun ps hps => (each ps hps).1.values_ne.imp .inr,
      apart.imp fun differ a ha b hb => .inl (differ a ha b hb)⟩

/-- Two tables, one of them called like a partition of the other, values around zero, two schemas,
and a partition that was listed under the name of the one that comes next.  They are created where
one of them is there already, besides another table's partition. -/
theorem generated_names_distinct_underscores :
    let one := [named "a" 12 "s", named "a" 13 "s"]
    let other := [named "a_1" (-1) "s", named "a_1" 0 "s", named "a_1" 1 "t"]
    let listed : Partition := ⟨"a", 1, "a_2", "s"⟩
    let tables := [named "a" 1 "s", named "a_1" 0 "s"]
    (∀ ps ∈ [one, other], IsSuccession ps ∧ ∀ first ∈ ps.head?, first.IsGenerated) ∧
      IsSuccession [listed, named "a" 2 "s"] ∧ ¬listed.IsGenerated ∧
      [one, other].flatten.map name = ["a_12", "a_13", "a_1_-1", "a_1_0", "a_1_1"] ∧
      ([one, other].flatten.map name).Nodup ∧
      (named "a" 2 "s").IsGenerated ∧
      Server.plain.CreatesIfNotExists ∧
      (∀ partition ∈ one ++ other,
        partition.IsGenerated ∧ Server.plain.Reserves tables partition) ∧
      ∃ tables', Server.plain.Runs (one ++ other) tables tables' ∧
        ∀ partition, partition ∈ tables' ↔ partition ∈ tables ∨ partition ∈ one ++ other := by
  intro one other listed tables
  obtain ⟨-, after, across, created⟩ := generated_names_distinct
  have hone : IsSuccession one := List.isChain_cons_cons.2 ⟨⟨"s", rfl⟩, .singleton _⟩
  have hother : IsSuccession other :=
    List.isChain_cons_cons.2 ⟨⟨"s", rfl⟩, List.isChain_cons_cons.2 ⟨⟨"t", rfl⟩, .singleton _⟩⟩
  have hlisted : IsSuccession [listed, named "a" 2 "s"] :=
    List.isChain_cons_cons.2 ⟨⟨"s", rfl⟩, .singleton _⟩
  have each : ∀ ps ∈ [one, other], IsSuccession ps ∧ ∀ first ∈ ps.head?, first.IsGenerated := by
    refine List.forall_mem_cons.2 ⟨⟨hone, by decide⟩, List.forall_mem_singleton.2 ⟨hother, ?_⟩⟩
    decide
  have apart : [one, other].Pairwise fun ps qs => ∀ a ∈ ps, ∀ b ∈ qs, a.table ≠ b.table := by
    decide
  have own : ∀ partition ∈ tables, partition.IsGenerated := by decide
  have generated : ∀ partition ∈ one ++ other, partition.IsGenerated := by decide
  have free : ∀ partition ∈ one ++ other,
      partition.IsGenerated ∧ Server.plain.Reserves tables partition := fun partition mem =>
    ⟨generated partition mem, fun taken => by
      obtain ⟨former, there, same⟩ := Server.isTaken_iff.1 taken
      exact ⟨former, there, own former there, same⟩⟩
  obtain ⟨tables', runs⟩ := Server.exists_runs_plain (one ++ other) tables
  exact ⟨each, hlisted, by decide, by decide, across [one, other] each apart,
    (after listed [named "a" 2 "s"] hlisted).1 _ List.mem_cons_self,
    Server.createsIfNotExists_plain, free, tables', runs,
    created Server.plain Server.createsIfNotExists_plain (one ++ other) tables tables' free runs⟩

end Upkeep.Partition
