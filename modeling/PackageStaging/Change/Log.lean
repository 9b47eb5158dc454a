import PackageStaging.Change.Basic

namespace PackageStaging

abbrev Log := List Change

namespace Log

/-- The log after one more change, provided each name stands in it at most once. -/
def absorb (log : Log) (c : Change) : Log :=
  match log.find? (·.name == c.name) with
  | none => log ++ [c]
  | some earlier =>
    if earlier.operation = c.operation then log else log.eraseP (·.name == c.name)

/-- What is left when every repetition is dropped and every contradiction taken back. -/
def net (log : Log) : Log := log.foldl absorb []

def names (log : Log) (o : Operation) : List String :=
  (log.filter (·.operation == o)).map Change.name

@[simp] theorem names_append (xs ys : Log) (o : Operation) :
    names (xs ++ ys) o = names xs o ++ names ys o := by
  simp [names]

theorem net_concat (log : Log) (c : Change) : net (log ++ [c]) = absorb (net log) c := by
  simp [net]

end Log

end PackageStaging
