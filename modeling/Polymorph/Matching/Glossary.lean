import Polymorph.Matching.Deterministic

/-!
# The business glossary

Terms of business concepts in three languages. A source field with one contract-safe target of a
common concept is pointed to that target, as advice for a review.
-/

set_option autoImplicit false

namespace Polymorph

/-- A glossary: the terms of each concept. -/
abbrev Glossary := List (String × List String)

/-- `data/business_glossary.json` -/
def businessGlossary : Glossary :=
  [("invoice_number", ["invoice number", "invoice no", "rechnungsnummer", "rechnungsnr",
     "numero de facture", "numero facture"]),
   ("invoice_date", ["invoice date", "invoice issue date", "rechnungsdatum", "belegdatum",
     "date de facture", "date facture"]),
   ("due_date", ["due date", "payment due date", "faelligkeitsdatum", "zahlungsziel",
     "date echeance", "date limite de paiement"]),
   ("currency", ["currency", "currency code", "document currency code", "waehrung",
     "waehrungscode", "devise", "code devise"]),
   ("net_amount", ["net amount", "invoice total amount without vat", "tax exclusive amount",
     "nettobetrag", "summe netto", "montant net", "montant hors taxe"]),
   ("gross_amount", ["gross amount", "invoice total amount with vat", "tax inclusive amount",
     "bruttobetrag", "summe brutto", "montant brut", "montant toutes taxes comprises"]),
   ("vat_amount", ["vat amount", "invoice total vat amount", "tax amount", "mehrwertsteuerbetrag",
     "umsatzsteuerbetrag", "mwst betrag", "montant tva", "taxe sur la valeur ajoutee"]),
   ("vat_rate", ["vat rate", "tax rate", "mehrwertsteuersatz", "umsatzsteuersatz", "mwst satz",
     "taux tva", "taux de taxe"]),
   ("payable_amount", ["payable amount", "amount due for payment", "zahlbetrag", "offener betrag",
     "montant a payer", "net a payer"]),
   ("customer_number", ["customer number", "customer id", "kundennummer", "debitorennummer",
     "debitor", "numero client", "identifiant client"]),
   ("supplier_number", ["supplier number", "vendor number", "lieferantennummer",
     "kreditorennummer", "kreditor", "numero fournisseur", "identifiant fournisseur"]),
   ("company_registration_number", ["company number", "company registration number",
     "organization registration number", "handelsregisternummer", "unternehmensnummer", "siren",
     "numero siren", "numero entreprise"]),
   ("legal_name", ["company name", "legal name", "firmenname", "rechtlicher name",
     "denominationunitelegale", "denomination unite legale", "raison sociale"]),
   ("incorporation_date", ["date of creation", "incorporation date", "gruendungsdatum",
     "errichtungsdatum", "datecreationunitelegale", "date creation unite legale"]),
   ("quantity", ["quantity", "invoiced quantity", "menge", "anzahl", "quantite",
     "quantite facturee"]),
   ("unit_price", ["unit price", "item net price", "einzelpreis", "stueckpreis", "prix unitaire",
     "prix net article"]),
   ("tax_id", ["tax id", "vat identifier", "steuer id", "steuernummer", "umsatzsteuer id",
     "numero tva", "identifiant fiscal"]),
   ("iban", ["iban", "bank account iban", "iban", "kontonummer iban", "iban",
     "compte bancaire iban"]),
   ("reference_date", ["reference date", "reporting date", "stichtag", "berichtsdatum",
     "date de reference", "date observation"]),
   ("area_square_kilometers", ["area square kilometers", "area km2", "gebietsflaeche qkm",
     "flaeche qkm", "superficie km2", "surface km2"])]

section Concepts

variable (S : Type) [ScoreArith S] (T : TextHost) (glossary : Glossary)

/-- `_term_index`, as pairs of a normalised term and a concept. -/
def termIndex : List (String × String) :=
  glossary.flatMap fun concept =>
    ((concept.2.map T.normalizeName).filter fun term => !term.isEmpty).map (·, concept.1)

/-- `_concepts` -/
def concepts (field : FieldDescriptor) : List String :=
  (field.name :: field.aliases).flatMap fun term =>
    ((termIndex T glossary).filter fun entry => entry.1 = T.normalizeName term).map Prod.snd

/-- `advisory_glossary_target` -/
def advisoryGlossaryTarget (source : FieldDescriptor) (targetSchema : SchemaDescriptor) :
    Option FieldDescriptor :=
  let sourceConcepts := concepts T glossary source
  if sourceConcepts.isEmpty then none
  else
    let matching := targetSchema.fields.filter fun target =>
      sourceConcepts.any (fun concept => concept ∈ concepts T glossary target) &&
        automaticMappingContractSafe S T source target targetSchema
    match matching with
    | [target] => some target
    | _ => none

end Concepts

theorem advisoryGlossaryTarget_mem {S : Type} [ScoreArith S] {T : TextHost} {glossary : Glossary}
    {source target : FieldDescriptor} {targetSchema : SchemaDescriptor}
    (h : advisoryGlossaryTarget S T glossary source targetSchema = some target) :
    target ∈ targetSchema.fields := by
  unfold advisoryGlossaryTarget at h
  dsimp only at h
  split at h
  · cases h
  · split at h
    · rename_i found hmatching
      cases h
      have hmem : target ∈ _ := hmatching ▸ List.mem_singleton_self target
      exact (List.mem_filter.1 hmem).1
    · cases h

end Polymorph
