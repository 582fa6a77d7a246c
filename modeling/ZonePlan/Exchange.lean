/-
The exchange form of a plan: a JSON text that holds all of it, for other programs and for a later run. Fields stand in the
order given here and the keys of maps in ascending order; fields of a record that are unset, and empty metadata, are left
out. So a plan has one compact and one pretty text.
-/
import ZonePlan.Json.Codec
import ZonePlan.Plan
namespace ZonePlan.Exchange

open Json

/-- the form of a declaration, which messages call `title` -/
def declaration (title : String) : Shape Declaration where
  title := title
  blank := ⟨"", ""⟩
  fields := [
    Codec.text.field "name" Declaration.name fun x d => { d with name := x },
    Codec.text.field "type" Declaration.kind fun x d => { d with kind := x }]
  required := 2

def record : Shape Record where
  title := "RecordConfig"
  blank := { kind := "", label := "", target := "" }
  fields := [
    Codec.text.field "type" Record.kind fun x r => { r with kind := x },
    Codec.text.field "name" Record.label fun x r => { r with label := x },
    Codec.text.field "target" Record.target fun x r => { r with target := x },
    Codec.word32.field "ttl" Record.ttl fun x r => { r with ttl := x },
    Codec.word16.fieldIfSet "mx_preference" Record.preference? fun x r => { r with preference? := x },
    Codec.word16.fieldIfSet "srv_priority" Record.priority? fun x r => { r with priority? := x },
    Codec.word16.fieldIfSet "srv_weight" Record.weight? fun x r => { r with weight? := x },
    Codec.word16.fieldIfSet "srv_port" Record.port? fun x r => { r with port? := x },
    Codec.word8.fieldIfSet "caa_flag" Record.flag? fun x r => { r with flag? := x },
    Codec.text.fieldIfSet "caa_tag" Record.tag? fun x r => { r with tag? := x },
    Codec.text.fieldIfFull "meta" Record.metadata fun x r => { r with metadata := x }]
  required := 3

def domain : Shape Domain where
  title := "DomainConfig"
  blank := { name := "" }
  fields := [
    Codec.text.field "name" Domain.name fun x d => { d with name := x },
    Codec.text.field "registrar" Domain.registrar fun x d => { d with registrar := x },
    Codec.word32.orNull.map.field "dns_providers" Domain.providers fun x d => { d with providers := x },
    record.codec.list.field "records" Domain.records fun x d => { d with records := x },
    Codec.text.fieldIfFull "meta" Domain.metadata fun x d => { d with metadata := x }]
  required := 1

def plan : Shape Plan where
  title := "DnsConfig"
  blank := {}
  fields := [
    (declaration "RegistrarConfig").codec.list.field "registrars" Plan.registrars
      fun x p => { p with registrars := x },
    (declaration "DnsProviderConfig").codec.list.field "dns_providers" Plan.providers
      fun x p => { p with providers := x },
    domain.codec.list.field "domains" Plan.domains fun x p => { p with domains := x }]
  required := 0

/-- the text of a plan -/
def render (style : Style) (p : Plan) : String :=
  (plan.json p).render style

/-- the plan of a text -/
def read (s : String) : Except Json.Fault Plan :=
  Reader.document plan.read s.toList

end ZonePlan.Exchange
