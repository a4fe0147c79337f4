import DecimalConformance.Main
import DecimalConformance.Proofs.Decimal.AccurateLogarithm
import DecimalConformance.Proofs.Decimal.CorrectQuotient
import DecimalConformance.Proofs.Decimal.CorrectRoot
import DecimalConformance.Proofs.Decimal.ExponentLimits
import DecimalConformance.Proofs.Decimal.ExponentialLength
import DecimalConformance.Proofs.Decimal.Extrema
import DecimalConformance.Proofs.Decimal.FarExponents
import DecimalConformance.Proofs.Decimal.FractionalPowers
import DecimalConformance.Proofs.Decimal.IntegralPowers
import DecimalConformance.Proofs.Decimal.MonotoneRounding
import DecimalConformance.Proofs.Decimal.PlainEngine
import DecimalConformance.Proofs.Decimal.SeriesLoops
import DecimalConformance.Proofs.Decimal.SmallIntegers
import DecimalConformance.Proofs.Decimal.SumLaws
import DecimalConformance.Proofs.Decimal.TruncatedRemainder
import DecimalConformance.Proofs.Decimal.WiderPrecision
import DecimalConformance.Proofs.Diagnostic.Contexts
import DecimalConformance.Proofs.Diagnostic.NearestName
import DecimalConformance.Proofs.Evaluation.AcceptedLiterals
import DecimalConformance.Proofs.Evaluation.DialectAgreement
import DecimalConformance.Proofs.Evaluation.PassDecision
import DecimalConformance.Proofs.Run.Balance
import DecimalConformance.Proofs.Run.Cutting
import DecimalConformance.Proofs.Run.Directives
import DecimalConformance.Proofs.Run.Faults
import DecimalConformance.Proofs.Run.Lockstep
import DecimalConformance.Proofs.Script.Layout
import DecimalConformance.Proofs.Settings.Resolution
